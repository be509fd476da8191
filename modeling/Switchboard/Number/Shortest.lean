import Switchboard.Number.Binary64
import Switchboard.Number.Decimal

/-!
# The shortest decimal that reads back

A finite magnitude `m · 2^e` is the nearest one to every real number in
an interval around it, the two ends included when `m` is even. Of the
decimals in that interval `shortest` takes one with the fewest digits,
and of those the nearest; a tie goes to the even last digit.

On a grid of decimals of one spacing, if any point lies in the interval
then one of the two neighbours of the magnitude does. So it is enough to
try the grids of one digit, two digits, and so on, two candidates each.

Two layouts of the result are in use: `text`, which turns to an exponent
for very large and very small magnitudes, and `positional`, which never
does.
-/

namespace Switchboard.Number

/-- A decimal `digits · 10^exponent`. -/
structure Scaled where
  digits : Nat
  exponent : Int
deriving DecidableEq, Repr

namespace Scaled

/-- Drops trailing zeros, at most as many as `fuel`. -/
def trimZeros : Nat → Scaled → Scaled
  | 0, d => d
  | fuel + 1, d =>
    if d.digits ≠ 0 ∧ d.digits % 10 = 0 then trimZeros fuel ⟨d.digits / 10, d.exponent + 1⟩ else d

end Scaled

namespace Binary64

/-- A product with a power of two, over a common denominator `2^k`. -/
def shifted (n : Nat) (e : Int) (k : Nat) : Nat := n * twoTo (e + k).toNat

/-- The numerators, over the denominator `2^1076`, of a magnitude and of
the two ends of the interval that rounds to it. -/
def interval (m : Nat) (e : Int) : Nat × Nat × Nat :=
  let value := shifted m e 1076
  let above := shifted (2 * m + 1) (e - 1) 1076
  let below :=
    if m = twoTo 52 ∧ minExponent < e then shifted (4 * m - 1) (e - 2) 1076
    else shifted (2 * m - 1) (e - 1) 1076
  (below, value, above)

/-- The nearer of the two neighbours of `num / den` on the grid of
spacing `10^exponent`, if one of them lies in the interval. -/
def onGrid (below num above den : Nat) (closed : Bool) (exponent : Int) : Option Scaled :=
  let up := if 0 ≤ exponent then den * tenTo exponent.toNat else den
  let scale := if 0 ≤ exponent then 1 else tenTo (-exponent).toNat
  let low := num * scale / up
  let inside (n : Nat) : Bool :=
    let x := n * up
    if closed then below * scale ≤ x && x ≤ above * scale
    else below * scale < x && x < above * scale
  let toLow := num * scale - low * up
  let toHigh := (low + 1) * up - num * scale
  let lowFirst := toLow < toHigh || (toLow == toHigh && low % 2 == 0)
  let first := if lowFirst then low else low + 1
  let second := if lowFirst then low + 1 else low
  if inside first then some ⟨first, exponent⟩
  else if inside second then some ⟨second, exponent⟩
  else none

/-- The exponent of the leading decimal digit of `num / den`, found by
moving an estimate at most `fuel` places. -/
def leadingDecimal (num den : Nat) : Nat → Int → Int
  | 0, k => k
  | fuel + 1, k =>
    let atLeast (k : Int) : Bool :=
      if 0 ≤ k then den * tenTo k.toNat ≤ num else den ≤ num * tenTo (-k).toNat
    if !atLeast k then leadingDecimal num den fuel (k - 1)
    else if atLeast (k + 1) then leadingDecimal num den fuel (k + 1)
    else k

/-- **The shortest decimal that reads back** as the magnitude `m · 2^e`. -/
def shortest (m : Nat) (e : Int) : Scaled :=
  if m = 0 then ⟨0, 0⟩
  else
    let (below, num, above) := interval m e
    let den := twoTo 1076
    let guess := ((Nat.log2 m : Int) + e) * 30103 / 100000
    let top := leadingDecimal num den 4 guess
    let grids := (List.range 17).map fun (n : Nat) => top - (n : Int)
    match grids.findSome? (onGrid below num above den (m % 2 == 0)) with
    | some d => d.trimZeros 20
    | none => ⟨num, 0⟩

/-- The digits of a scaled decimal with its point in place, and at least
one digit on either side of the point. -/
def pointed (d : Scaled) : List Char :=
  let ds := Number.digits d.digits
  let places := (ds.length : Int) + d.exponent
  if 0 ≤ d.exponent then ds ++ List.replicate d.exponent.toNat '0' ++ ['.', '0']
  else if 0 < places then ds.take places.toNat ++ '.' :: ds.drop places.toNat
  else '0' :: '.' :: List.replicate (-places).toNat '0' ++ ds

/-- The digits of a scaled decimal with one digit before the point and a
signed exponent. -/
def exponential (d : Scaled) : List Char :=
  let ds := Number.digits d.digits
  let exponent := (ds.length : Int) + d.exponent - 1
  let sign := if exponent < 0 then '-' else '+'
  ds.take 1 ++ (if ds.length = 1 then [] else '.' :: ds.drop 1) ++
    'e' :: sign :: Number.digits exponent.natAbs

/-- A sign in front of a text that has none. -/
def signed (negative : Bool) (cs : List Char) : String :=
  String.ofList (if negative then '-' :: cs else cs)

/-- The text of a number: positional from `10^-5` up to below `10^16`,
and with an exponent outside. A whole number keeps one zero behind its
point. -/
def text : Binary64 → String
  | finite s m e =>
    let d := shortest m e
    let places := ((Number.digits d.digits).length : Int) + d.exponent
    signed s (if m = 0 ∨ (-5 < places ∧ places ≤ 16) then pointed d else exponential d)
  | infinity s => signed s "inf".toList
  | nan => "NaN"

/-- The text of a number without an exponent, and without a point where
the number is whole. -/
def positional : Binary64 → String
  | finite s m e =>
    let d := shortest m e
    let cs := pointed d
    signed s (if 0 ≤ d.exponent then cs.take (cs.length - 2) else cs)
  | infinity s => signed s "inf".toList
  | nan => "NaN"

end Binary64

end Switchboard.Number
