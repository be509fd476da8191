/-!
# Cutting text into parts

`splitOn` cuts a list of characters at every occurrence of one character, and
`joinWith` puts parts together with a character between them.
-/

namespace Switchboard.Text

/-- The parts between the occurrences of a character; there is always at
least one. -/
def splitOn (sep : Char) : List Char → List (List Char)
  | [] => [[]]
  | c :: cs =>
    if c = sep then [] :: splitOn sep cs
    else match splitOn sep cs with
      | [] => [[c]]
      | part :: parts => (c :: part) :: parts

/-- Parts with a character between them. -/
def joinWith (sep : Char) : List (List Char) → List Char
  | [] => []
  | [part] => part
  | part :: parts => part ++ sep :: joinWith sep parts

theorem splitOn_ne_nil (sep : Char) (cs : List Char) : splitOn sep cs ≠ [] := by
  cases cs with
  | nil => simp [splitOn]
  | cons c cs =>
    simp only [splitOn]
    split
    · simp
    · split <;> simp

/-- What stands behind the last occurrence of a character, and what stands
before it. -/
def splitLast? (sep : Char) (cs : List Char) : Option (List Char × List Char) :=
  match (splitOn sep cs.reverse) with
  | last :: rest@(_ :: _) => some ((joinWith sep rest).reverse, last.reverse)
  | _ => none

end Switchboard.Text
