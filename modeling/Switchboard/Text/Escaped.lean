/-!
# Escapes

Behind a backslash a letter stands for a character: `b` `t` `n` `f` `r`
for the control characters known by these letters, `"` and the backslash
for themselves, `u` and `U` for the character whose number follows in four
or eight hexadecimal digits.
-/

namespace Switchboard.Text

/-- The value of a hexadecimal digit. -/
def hexDigitValue? (c : Char) : Option Nat :=
  if '0' ≤ c ∧ c ≤ '9' then some (c.toNat - 48)
  else if 'a' ≤ c ∧ c ≤ 'f' then some (c.toNat - 87)
  else if 'A' ≤ c ∧ c ≤ 'F' then some (c.toNat - 55)
  else none

/-- The character whose number is written with so many hexadecimal digits
at the beginning of a text, and the rest. -/
def hexChar? (count : Nat) (cs : List Char) : Option (Char × List Char) :=
  if cs.length < count then none
  else
    match (cs.take count).mapM hexDigitValue? with
    | none => none
    | some ds =>
      let n := ds.foldl (fun n d => 16 * n + d) 0
      if n.isValidChar then some (Char.ofNat n, cs.drop count) else none

/-- The character that one letter behind a backslash stands for. -/
def escapedLetter? (c : Char) : Option Char :=
  match c with
  | '"' => some '"'
  | '\\' => some '\\'
  | 'b' => some '\x08'
  | 'f' => some '\x0c'
  | 'n' => some '\n'
  | 'r' => some '\r'
  | 't' => some '\t'
  | _ => none

/-- **The character an escape stands for**, read from behind its
backslash, and the rest. -/
def readEscape? : List Char → Option (Char × List Char)
  | 'u' :: cs => hexChar? 4 cs
  | 'U' :: cs => hexChar? 8 cs
  | c :: cs => (escapedLetter? c).map fun e => (e, cs)
  | [] => none

/-- The rest of a text behind a word it begins with. -/
def after? : List Char → List Char → Option (List Char)
  | [], cs => some cs
  | w :: ws, c :: cs => if w = c then after? ws cs else none
  | _ :: _, [] => none

end Switchboard.Text
