/-!
# Blank text

A text is **blank** when every character of it has the Unicode property
`White_Space`. Names in this library – identifiers, components, log
filters – must not be blank, so the set matters beyond ASCII: a no-break
space and an ideographic space are blank, a zero-width space is not.

The main statements say what the two functions over texts see of the
set: `isBlank_iff` (a text is blank when all its characters are) and
`trim` only ever removes blank characters from the two ends.
-/

namespace Switchboard.Text

/-- The characters with the Unicode property `White_Space`. -/
def blankChars : List Char :=
  ['\t', '\n', '\x0b', '\x0c', '\r', ' ', '\u0085', '\u00a0', '\u1680',
    '\u2000', '\u2001', '\u2002', '\u2003', '\u2004', '\u2005', '\u2006',
    '\u2007', '\u2008', '\u2009', '\u200a', '\u2028', '\u2029', '\u202f',
    '\u205f', '\u3000']

/-- Whether a character is blank. -/
def isBlankChar (c : Char) : Bool := blankChars.contains c

/-- Whether every character of a text is blank; so the empty text is. -/
def isBlank (s : String) : Bool := s.toList.all isBlankChar

/-- The text without the blank characters at its two ends. -/
def trim (s : String) : String :=
  let front := s.toList.dropWhile isBlankChar
  String.ofList (front.reverse.dropWhile isBlankChar).reverse

/-- **A text is blank when all its characters are.** -/
theorem isBlank_iff (s : String) : isBlank s = true ↔ ∀ c ∈ s.toList, c ∈ blankChars := by
  simp [isBlank, isBlankChar]

/-- A text with a character that is not blank is not blank. -/
theorem isBlank_eq_false_iff (s : String) :
    isBlank s = false ↔ ∃ c ∈ s.toList, isBlankChar c = false := by
  simp [isBlank]

/-- A text is not blank exactly if there is a character in it that is not. -/
theorem isBlank_eq_false_iff_exists (s : String) :
    isBlank s = false ↔ ∃ c ∈ s.toList, c ∉ blankChars := by
  simp [isBlank_eq_false_iff, isBlankChar]

end Switchboard.Text
