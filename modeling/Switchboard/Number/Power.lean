/-!
# Powers

The powers of the two bases in use, of numbers and of numerals.
-/

namespace Switchboard.Number

/-- A power of two. -/
def twoTo (k : Nat) : Nat := Nat.pow 2 k

/-- A power of ten. -/
def tenTo (k : Nat) : Nat := Nat.pow 10 k

end Switchboard.Number
