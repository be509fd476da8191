import Switchboard.Number.Decimal

/-!
# Durations

A duration is a whole number of milliseconds. It is shown in seconds when
it lasts at least one, with as many decimal places as it needs, in
milliseconds when it is shorter, and in nanoseconds when it is none at
all.
-/

namespace Switchboard.Text

/-- The digits of a fraction of a second, given in milliseconds, without
trailing zeros. -/
def fractionDigits (ms : Nat) : List Char :=
  let places := [ms / 100, ms / 10 % 10, ms % 10].map Number.digitChar
  (places.reverse.dropWhile (· == '0')).reverse

/-- The text of a duration in milliseconds. -/
def durationText (ms : Nat) : String :=
  if ms = 0 then "0ns"
  else if ms < 1000 then Number.natText ms ++ "ms"
  else
    let fraction := fractionDigits (ms % 1000)
    Number.natText (ms / 1000) ++
      String.ofList (if fraction.isEmpty then [] else '.' :: fraction) ++ "s"

example :
    [0, 10, 1500, 60000, 1001].map durationText = ["0ns", "10ms", "1.5s", "60s", "1.001s"] := by
  decide +kernel

end Switchboard.Text
