import Switchboard.Setting.Basic
import Switchboard.Text.Escaped

/-!
# TOML values of one word

Numbers, truth values, dates and times, and the four kinds of strings.
Each reader takes a value from the beginning of a text and gives the rest;
`none` means that the text breaks the rules of TOML there.

The first characters of a word decide what it is: four digits and a
hyphen begin a date, two digits and a colon a time of day, and any other
digit or sign a number. A date or time becomes a table with one entry,
which holds it in its shortest form.
-/

namespace Switchboard.Toml

open Switchboard.Number (isDigit digitValue Binary64)
open Switchboard.Text (after? hexDigitValue? readEscape?)

/-- Blanks inside a line. -/
def isSpace (c : Char) : Bool := c == ' ' || c == '\t'

/-- The text without the blanks at its beginning. -/
def skipSpaces (cs : List Char) : List Char := cs.dropWhile isSpace

/-- Control characters, which only a tab may be of. -/
def isControl (c : Char) : Bool := (c.toNat < 32 && c != '\t') || c.toNat == 127

/-- The text behind an end of line. -/
def newline? : List Char → Option (List Char)
  | '\n' :: cs => some cs
  | '\r' :: '\n' :: cs => some cs
  | _ => none

/-! ## Numbers -/

/-- Reads digits of some kind; an underscore may stand between two of
them. -/
def readDigits (ok : Char → Bool) : List Char → Option (List Char × List Char)
  | '_' :: c :: cs =>
    if ok c then (readDigits ok cs).map fun (ds, rest) => (c :: ds, rest) else none
  | ['_'] => none
  | c :: cs =>
    if ok c then (readDigits ok cs).map fun (ds, rest) => (c :: ds, rest) else some ([], c :: cs)
  | [] => some ([], [])

/-- Reads at least one digit. -/
def readSomeDigits (ok : Char → Bool) : List Char → Option (List Char × List Char)
  | c :: cs =>
    if ok c then (readDigits ok cs).map fun (ds, rest) => (c :: ds, rest) else none
  | [] => none

/-- Reads the digits of a whole number: a zero stands alone. -/
def readWhole : List Char → Option (List Char × List Char)
  | '0' :: cs => some (['0'], cs)
  | cs => readSomeDigits isDigit cs

/-- A sign that may be missing: whether it is a minus, and the rest. -/
def sign : List Char → Bool × List Char
  | '-' :: cs => (true, cs)
  | '+' :: cs => (false, cs)
  | cs => (false, cs)

/-- Reads the exponent of a number behind its letter. -/
def readExponent (cs : List Char) : Option (Int × List Char) :=
  let (negative, cs) := sign cs
  (readSomeDigits isDigit cs).map fun (ds, rest) =>
    let n : Int := Number.value ds
    (if negative then -n else n, rest)

/-- Whether a letter announces an exponent. -/
def isExponentLetter (c : Char) : Bool := c == 'e' || c == 'E'

/-- A float from its digits before and behind the point and its exponent.
A positive number beyond every magnitude is refused. -/
def floatOf (negative : Bool) (whole places : List Char) (exponent : Int) (rest : List Char) :
    Option (Setting × List Char) :=
  match Binary64.ofDecimal negative (Number.value (whole ++ places))
      (exponent - places.length) with
  | .infinity false => none
  | x => some (.float x, rest)

/-- An integer in a signed word of 64 bits. -/
def integerOf (n : Int) (rest : List Char) : Option (Setting × List Char) :=
  if Number.fitsInt64 n then some (.integer n, rest) else none

/-- Reads a number in decimal digits. -/
def readDecimal (cs : List Char) : Option (Setting × List Char) :=
  let (negative, cs) := sign cs
  match readWhole cs with
  | none => none
  | some (whole, '.' :: cs) =>
    match readSomeDigits isDigit cs with
    | none => none
    | some (places, c :: rest) =>
      if isExponentLetter c then
        (readExponent rest).bind fun (e, rest) => floatOf negative whole places e rest
      else floatOf negative whole places 0 (c :: rest)
    | some (places, []) => floatOf negative whole places 0 []
  | some (whole, c :: rest) =>
    if isExponentLetter c then
      (readExponent rest).bind fun (e, rest) => floatOf negative whole [] e rest
    else
      let n : Int := Number.value whole
      integerOf (if negative then -n else n) (c :: rest)
  | some (whole, []) =>
    let n : Int := Number.value whole
    integerOf (if negative then -n else n) []

/-- Reads the digits of a natural number in another base. -/
def readInBase (base : Nat) (cs : List Char) : Option (Setting × List Char) :=
  let ok (c : Char) : Bool := match hexDigitValue? c with
    | some d => d < base
    | none => false
  (readSomeDigits ok cs).bind fun (ds, rest) =>
    integerOf (ds.foldl (fun n c => base * n + (hexDigitValue? c).getD 0) 0 : Nat) rest

/-- Reads a number. -/
def readNumber (cs : List Char) : Option (Setting × List Char) :=
  let special := (sign cs).2
  match after? "inf".toList special, after? "nan".toList special with
  | some rest, _ => some (.float (.infinity (sign cs).1), rest)
  | _, some rest => some (.float .nan, rest)
  | _, _ =>
    match cs with
    | '0' :: 'x' :: rest => readInBase 16 rest
    | '0' :: 'o' :: rest => readInBase 8 rest
    | '0' :: 'b' :: rest => readInBase 2 rest
    | cs => readDecimal cs

/-! ## Dates and times -/

/-- Reads exactly so many digits of a number that lies between bounds. -/
def readField (count low high : Nat) (cs : List Char) : Option (List Char × List Char) :=
  let ds := cs.take count
  if ds.length = count ∧ ds.all isDigit ∧ low ≤ Number.value ds ∧ Number.value ds ≤ high then
    some (ds, cs.drop count)
  else none

/-- Reads one character that must stand here. -/
def readChar (c : Char) : List Char → Option (List Char)
  | d :: cs => if c = d then some cs else none
  | [] => none

/-- The days of a month. -/
def daysIn (year month : Nat) : Nat :=
  if month = 2 then
    if year % 4 = 0 ∧ (year % 100 ≠ 0 ∨ year % 400 = 0) then 29 else 28
  else if month = 4 ∨ month = 6 ∨ month = 9 ∨ month = 11 then 30
  else 31

/-- Reads a date. -/
def readDate (cs : List Char) : Option (List Char × List Char) := do
  let (year, cs) ← readField 4 0 9999 cs
  let cs ← readChar '-' cs
  let (month, cs) ← readField 2 1 12 cs
  let cs ← readChar '-' cs
  let (day, cs) ← readField 2 1 (daysIn (Number.value year) (Number.value month)) cs
  some (year ++ '-' :: month ++ '-' :: day, cs)

/-- The digits of a part of a second that are kept: nine at most, without
zeros at the end. -/
def keptPlaces (ds : List Char) : List Char :=
  ((ds.take 9).reverse.dropWhile (· == '0')).reverse

/-- Reads a time of day. -/
def readTime (cs : List Char) : Option (List Char × List Char) := do
  let (hour, cs) ← readField 2 0 23 cs
  let cs ← readChar ':' cs
  let (minute, cs) ← readField 2 0 59 cs
  let cs ← readChar ':' cs
  let (second, cs) ← readField 2 0 60 cs
  let time := hour ++ ':' :: minute ++ ':' :: second
  match cs with
  | '.' :: rest =>
    let places := rest.takeWhile isDigit
    if places.isEmpty then some (time, cs)
    else
      let kept := keptPlaces places
      some (if kept.isEmpty then time else time ++ '.' :: kept, rest.dropWhile isDigit)
  | cs => some (time, cs)

/-- Reads how far a time is off the world's, if that is said. -/
def readOffset (cs : List Char) : Option (List Char × List Char) :=
  match cs with
  | c :: rest =>
    if c = 'Z' ∨ c = 'z' then some (['Z'], rest)
    else if c = '+' ∨ c = '-' then do
      let (hour, cs) ← readField 2 0 23 rest
      let cs ← readChar ':' cs
      let (minute, cs) ← readField 2 0 59 cs
      let nothing := Number.value hour = 0 ∧ Number.value minute = 0
      some ((if nothing then '+' else c) :: hour ++ ':' :: minute, cs)
    else some ([], cs)
  | [] => some ([], [])

/-- Whether a text begins with so many digits and a character. -/
def startsWithDigits (count : Nat) (c : Char) (cs : List Char) : Bool :=
  (cs.take count).length == count && (cs.take count).all isDigit && (cs.drop count).head? == some c

/-- Whether a time of day follows a date, behind one character. -/
def timeFollows : List Char → Bool
  | c :: cs => (c == 'T' || c == 't' || c == ' ') && startsWithDigits 2 ':' cs
  | [] => false

/-- A date or time as a setting. -/
def moment (cs : List Char) : Setting :=
  .table [("$__toml_private_datetime", .text (String.ofList cs))]

/-- Reads a date, a time, or a date with a time. -/
def readMoment (cs : List Char) : Option (Setting × List Char) :=
  if startsWithDigits 2 ':' cs then (readTime cs).map fun (t, rest) => (moment t, rest)
  else do
    let (date, cs) ← readDate cs
    if timeFollows cs then
      let (time, cs) ← readTime cs.tail
      let (offset, cs) ← readOffset cs
      some (moment (date ++ 'T' :: time ++ offset), cs)
    else some (moment date, cs)

/-- Reads a number, a date or a time. -/
def readNumberOrMoment (cs : List Char) : Option (Setting × List Char) :=
  if startsWithDigits 4 '-' cs ∨ startsWithDigits 2 ':' cs then readMoment cs else readNumber cs

/-! ## Strings -/

/-- Reads a string on one line, behind its quote. -/
def readBasic : Nat → List Char → Option (List Char × List Char)
  | 0, _ => none
  | _, [] => none
  | fuel + 1, c :: cs =>
    if c = '"' then some ([], cs)
    else if c = '\\' then do
      let (e, cs) ← readEscape? cs
      let (text, rest) ← readBasic fuel cs
      some (e :: text, rest)
    else if isControl c then none
    else (readBasic fuel cs).map fun (text, rest) => (c :: text, rest)

/-- Reads a string on one line in which nothing is escaped, behind its
quote. -/
def readLiteral : List Char → Option (List Char × List Char)
  | [] => none
  | c :: cs =>
    if c = '\'' then some ([], cs)
    else if isControl c then none
    else (readLiteral cs).map fun (text, rest) => (c :: text, rest)

/-- The text behind an escaped end of line and all blanks and ends of line
that follow it. -/
def afterBreak? (cs : List Char) : Option (List Char) :=
  let rec skip : List Char → List Char
    | '\n' :: cs => skip cs
    | '\r' :: '\n' :: cs => skip cs
    | ' ' :: cs => skip cs
    | '\t' :: cs => skip cs
    | cs => cs
  (newline? (skipSpaces cs)).map skip

/-- What stands at the end of a string on several lines, where three or
more quotes follow: up to two of them belong to the string. -/
def closing (q : Char) (cs : List Char) : Option (List Char × List Char) :=
  let count := (cs.takeWhile (· == q)).length
  let extra := min (count - 3) 2
  some (List.replicate extra q, cs.drop (extra + 3))

/-- Whether three quotes stand here. -/
def closes (q : Char) : List Char → Bool
  | a :: b :: c :: _ => a == q && b == q && c == q
  | _ => false

/-- Reads a string on several lines, behind its quotes. In a literal one
nothing is escaped. -/
def readLines (literal : Bool) (q : Char) : Nat → List Char → Option (List Char × List Char)
  | 0, _ => none
  | _, [] => none
  | fuel + 1, c :: cs =>
    let goOn (read : List Char) (cs : List Char) : Option (List Char × List Char) :=
      (readLines literal q fuel cs).map fun (text, rest) => (read ++ text, rest)
    if closes q (c :: cs) then closing q (c :: cs)
    else if c = '\\' ∧ literal = false then
      match afterBreak? cs with
      | some rest => goOn [] rest
      | none => (readEscape? cs).bind fun (e, cs) => goOn [e] cs
    else
      match newline? (c :: cs) with
      | some rest => goOn ['\n'] rest
      | none => if isControl c then none else goOn [c] cs

/-- Reads a string with any kind of quotes. -/
def readString (cs : List Char) : Option (String × List Char) :=
  let steps := cs.length + 1
  let read : Option (List Char × List Char) :=
    match cs with
    | '"' :: '"' :: '"' :: cs => readLines false '"' steps ((newline? cs).getD cs)
    | '"' :: cs => readBasic steps cs
    | '\'' :: '\'' :: '\'' :: cs => readLines true '\'' steps ((newline? cs).getD cs)
    | '\'' :: cs => readLiteral cs
    | _ => none
  read.map fun (text, rest) => (String.ofList text, rest)

/-- Reads a word that stands for a value. -/
def readWord (word : String) (value : Setting) (cs : List Char) : Option (Setting × List Char) :=
  (after? word.toList cs).map fun rest => (value, rest)

/-- **Reads a value of one word.** -/
def readScalar (cs : List Char) : Option (Setting × List Char) :=
  match cs with
  | [] => none
  | c :: _ =>
    if c = '"' ∨ c = '\'' then (readString cs).map fun (s, rest) => (.text s, rest)
    else if c = 't' then readWord "true" (.bool true) cs
    else if c = 'f' then readWord "false" (.bool false) cs
    else if isDigit c ∨ c = '+' ∨ c = '-' ∨ c = 'i' ∨ c = 'n' then readNumberOrMoment cs
    else none

end Switchboard.Toml
