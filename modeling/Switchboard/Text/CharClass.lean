/-!
# Classes of characters as lists of boundaries

A class of characters given by a standard is a union of ranges of code
points. It is kept as the increasing list of the points where membership
changes: the first boundary opens the first range, the second closes it
(the boundary itself being outside), and so on. A code point is in the
class when an odd number of boundaries lies at or below it, which is
`inClass`.
-/

namespace Switchboard.Text

/-- Whether a code point lies in the class with these boundaries. -/
def inClass (bounds : List Nat) (point : Nat) : Bool := bounds.countP (· ≤ point) % 2 == 1

end Switchboard.Text
