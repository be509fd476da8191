import Switchboard.Json.Document

/-!
# Reading JSON

`Document.ofText` reads a text as a `Document`. The grammar is the
standard one, without comments or trailing commas: blanks are the space,
tab, line feed and carriage return, a string holds no control character,
and a number has no plus sign and no leading zero.

A whole number that fits 64 bits, signed or unsigned, is an integer; a
minus sign before a zero makes a float, as do a point and an exponent. The
digits of a float count as long as they fit an unsigned word of 64 bits;
later digits before the point only raise the exponent, later ones behind
it are dropped. The word is rounded to a float first and scaled by a power
of ten after that, which rounds once more.

The recursion of the reader is bounded by the length of the text, since
every step reads a character.
-/

namespace Switchboard.Json

open Switchboard.Number (isDigit digitValue Binary64)

/-- The blanks between the tokens of a text. -/
def isSpace (c : Char) : Bool := c == ' ' || c == '\t' || c == '\n' || c == '\r'

/-- The text without the blanks at its start. -/
def skipSpace (cs : List Char) : List Char := cs.dropWhile isSpace

/-! ## Strings -/

/-- The value of a hexadecimal digit in either case. -/
def hexValue? (c : Char) : Option Nat :=
  if '0' ≤ c ∧ c ≤ '9' then some (c.toNat - 48)
  else if 'a' ≤ c ∧ c ≤ 'f' then some (c.toNat - 87)
  else if 'A' ≤ c ∧ c ≤ 'F' then some (c.toNat - 55)
  else none

/-- The value of four hexadecimal digits. -/
def hexWord? (a b c d : Char) : Option Nat :=
  match hexValue? a, hexValue? b, hexValue? c, hexValue? d with
  | some a, some b, some c, some d => some (((a * 16 + b) * 16 + c) * 16 + d)
  | _, _, _, _ => none

/-- What is wrong with an escape that does not start with four
hexadecimal digits: the text may end within four bytes. -/
def shortEscape (cs : List Char) : Fault :=
  if cs.foldl (fun n c => n + c.utf8Size) 0 < 4 then .cutShort else .malformed

/-- The characters that a backslash and one letter stand for. -/
def simpleEscape? (c : Char) : Option Char :=
  if c = '"' ∨ c = '\\' ∨ c = '/' then some c
  else if c = 'b' then some '\x08'
  else if c = 'f' then some '\x0c'
  else if c = 'n' then some '\n'
  else if c = 'r' then some '\r'
  else if c = 't' then some '\t'
  else none

/-- A string token: its characters, if it can be read, and the text
behind it, if it can be passed. -/
structure StringToken where
  text : Except Fault (List Char)
  rest : Except Fault (List Char)

namespace StringToken

/-- A token that breaks the text. -/
def stop (f : Fault) : StringToken := ⟨.error f, .error f⟩

/-- Puts a character in front. -/
def cons (c : Char) (t : StringToken) : StringToken := { t with text := t.text.map (c :: ·) }

/-- The token cannot be read, but passed as before. -/
def spoil (f : Fault) (t : StringToken) : StringToken := { t with text := .error f }

end StringToken

/-- The first half of a surrogate pair is not followed by a second half. -/
def StringToken.unpaired (half : Option Nat) (t : StringToken) : StringToken :=
  if half.isSome then t.spoil .malformed else t

/-- Reads a string from behind its opening quote, or from behind the
escape of the first half of a surrogate pair. -/
def readString (half : Option Nat) : List Char → StringToken
  | [] => .stop .cutShort
  | '"' :: rest => StringToken.unpaired half ⟨.ok [], .ok rest⟩
  | '\\' :: 'u' :: a :: b :: c :: d :: rest =>
    match hexWord? a b c d, half with
    | none, _ => .stop .malformed
    | some n, some first =>
      if 0xdc00 ≤ n ∧ n ≤ 0xdfff then
        (readString none rest).cons (Char.ofNat (0x10000 + (first - 0xd800) * 0x400 + (n - 0xdc00)))
      else (readString none rest).spoil .malformed
    | some n, none =>
      if n < 0xd800 ∨ 0xdfff < n then (readString none rest).cons (Char.ofNat n)
      else if n < 0xdc00 then readString (some n) rest
      else (readString none rest).spoil .malformed
  | '\\' :: 'u' :: rest => .stop (shortEscape rest)
  | '\\' :: c :: rest =>
    match simpleEscape? c with
    | some e => ((readString none rest).cons e).unpaired half
    | none => .stop .malformed
  | '\\' :: [] => .stop .cutShort
  | c :: rest =>
    if c.toNat < 32 then .stop .malformed else ((readString none rest).cons c).unpaired half

/-! ## Numbers -/

/-- The largest number in an unsigned word. -/
def maxWord : Nat := 0xffffffffffffffff

/-- Takes digits into a word as long as they fit, and gives the digits
that do not. -/
def fillWord (word : Nat) : List Char → Nat × List Char
  | [] => (word, [])
  | c :: cs =>
    let next := 10 * word + digitValue c
    if maxWord < next then (word, c :: cs) else fillWord next cs

/-- A float times a power of ten, whose exponent is given; `none` beyond
every magnitude. An exponent below the least power is reached in several
steps, at most `fuel`. -/
def scaleByTen (x : Binary64) : Nat → Int → Option Binary64
  | 0, _ => some x
  | fuel + 1, exponent =>
    if x.isZero then some x
    else if 308 < exponent then none
    else if 0 ≤ exponent then
      match Binary64.ofDecimal false 1 exponent with
      | .finite _ m e => let y := x.scaleUp m e; if y.isInfinite then none else some y
      | _ => none
    else if -308 ≤ exponent then
      match Binary64.ofDecimal false 1 (-exponent) with
      | .finite _ m e => some (x.scaleDown m e)
      | _ => none
    else
      match Binary64.ofDecimal false 1 308 with
      | .finite _ m e => scaleByTen (x.scaleDown m e) fuel (exponent + 308)
      | _ => none

/-- The parts of a number token: digits before and behind the point, and
the exponent. -/
structure NumberToken where
  negative : Bool
  whole : List Char
  fraction : Option (List Char)
  exponent : Option Int

/-- The value of a number token, unless it is beyond every magnitude. -/
def NumberToken.value? (t : NumberToken) : Option Document :=
  let (word, more) := fillWord 0 t.whole
  match t.fraction, t.exponent, more with
  | none, none, [] =>
    if !t.negative then some (.int word)
    else if word = 0 ∨ 0x8000000000000000 < word then some (.float (Binary64.ofNat true word))
    else some (.int (-(word : Int)))
  | _, _, _ =>
    let behind := t.fraction.getD []
    let (word, dropped) := fillWord word behind
    let kept := behind.length - dropped.length
    let exponent := t.exponent.getD 0
    if 0x80000000 ≤ exponent then
      if word = 0 then some (.float (Binary64.zero t.negative)) else none
    else if exponent ≤ -0x80000000 then some (.float (Binary64.zero t.negative))
    else
      let exponent := exponent + more.length - kept
      (scaleByTen (Binary64.ofNat false word) 4 exponent).map fun x =>
        .float (if t.negative then x.neg else x)

/-- A document together with the text behind it, or nothing behind it
when it cannot be passed. -/
abbrev Scanned := Document × Option (List Char)

/-- A reading that breaks the text, for the reader and for the passer. -/
def stopReading (reading passing : Fault) : Scanned := (.broken reading (some passing), none)

/-- The value of a number token with the text behind it. -/
def finishNumber (t : NumberToken) (rest : List Char) : Scanned :=
  ((t.value?).getD (.broken .malformed none), some rest)

/-- The fault of a number that lacks a digit here: the end of the text
is told apart only by a reader. -/
def missingDigit (rest : List Char) : Scanned :=
  stopReading (if rest.isEmpty then .cutShort else .malformed) .malformed

/-- Reads the exponent of a number, if it has one. -/
def readExponent (t : NumberToken) (cs : List Char) : Scanned :=
  match cs with
  | [] => finishNumber t []
  | c :: rest =>
    if c = 'e' ∨ c = 'E' then
      let (negative, rest) := match rest with
        | '+' :: r => (false, r)
        | '-' :: r => (true, r)
        | r => (false, r)
      let ds := rest.takeWhile isDigit
      let rest := rest.dropWhile isDigit
      if ds.isEmpty then missingDigit rest
      else
        let n : Int := Number.value ds
        finishNumber { t with exponent := some (if negative then -n else n) } rest
    else finishNumber t (c :: rest)

/-- Reads the digits behind the point of a number, if it has one. -/
def readFraction (t : NumberToken) (cs : List Char) : Scanned :=
  match cs with
  | '.' :: rest =>
    let ds := rest.takeWhile isDigit
    let rest := rest.dropWhile isDigit
    if ds.isEmpty then missingDigit rest
    else readExponent { t with fraction := some ds } rest
  | _ => readExponent t cs

/-- Reads a number from behind its sign. -/
def readNumber (negative : Bool) (cs : List Char) : Scanned :=
  match cs with
  | '0' :: rest =>
    match rest with
    | c :: _ =>
      if isDigit c then stopReading .malformed .malformed
      else readFraction ⟨negative, ['0'], none, none⟩ rest
    | [] => readFraction ⟨negative, ['0'], none, none⟩ rest
  | _ =>
    let ds := cs.takeWhile isDigit
    let rest := cs.dropWhile isDigit
    if ds.isEmpty then missingDigit rest
    else readFraction ⟨negative, ds, none, none⟩ rest

/-! ## Values -/

/-- Reads the rest of a word; its first letter has been read. -/
def readWord (v : Document) : List Char → List Char → Scanned
  | [], rest => (v, some rest)
  | _ :: _, [] => stopReading .cutShort .cutShort
  | c :: word, d :: rest =>
    if c = d then readWord v word rest else stopReading .malformed .malformed

mutual

/-- Reads a value; `fuel` bounds the steps. -/
def readValue : Nat → List Char → Scanned
  | 0, _ => stopReading .malformed .malformed
  | fuel + 1, cs =>
    match skipSpace cs with
    | [] => stopReading .cutShort .cutShort
    | c :: rest =>
      if c = 'n' then readWord .null ['u', 'l', 'l'] rest
      else if c = 't' then readWord (.bool true) ['r', 'u', 'e'] rest
      else if c = 'f' then readWord (.bool false) ['a', 'l', 's', 'e'] rest
      else if c = '"' then
        match readString none rest with
        | ⟨.ok text, .ok rest⟩ => (.str (String.ofList text), some rest)
        | ⟨.ok _, .error f⟩ => (.stop f, none)
        | ⟨.error f, .ok rest⟩ => (.broken f none, some rest)
        | ⟨.error f, .error f'⟩ => (.broken f (some f'), none)
      else if c = '[' then
        let (items, fault, rest) := readItems fuel true rest
        (.arr items fault, rest)
      else if c = '\x7b' then
        let (members, stray, rest) := readMembers fuel true rest
        (.obj members stray, rest)
      else if c = '-' then readNumber true rest
      else if isDigit c then readNumber false (c :: rest)
      else stopReading .malformed .malformed

/-- Reads the items of an array, from behind the bracket or, unless they
are the first ones, from behind an item. -/
def readItems : Nat → Bool → List Char → List Document × Option Fault × Option (List Char)
  | 0, _, _ => ([], some .malformed, none)
  | fuel + 1, first, cs =>
    let item (cs : List Char) :=
      match readValue fuel cs with
      | (d, none) => ([d], none, none)
      | (d, some rest) =>
        let (ds, fault, rest) := readItems fuel false rest
        (d :: ds, fault, rest)
    match skipSpace cs with
    | [] => ([], some .cutShort, none)
    | c :: rest =>
      if c = ']' then ([], none, some rest)
      else if first then item (c :: rest)
      else if c = ',' then
        match skipSpace rest with
        | ']' :: _ => ([.stop .malformed], none, none)
        | rest => item rest
      else ([], some .malformed, none)

/-- Reads the members of an object, from behind the brace or, unless they
are the first ones, from behind a member. -/
def readMembers : Nat → Bool → List Char →
    List (Except Fault String × Document) × Option Document × Option (List Char)
  | 0, _, _ => ([], some (.stop .malformed), none)
  | fuel + 1, first, cs =>
    let member (cs : List Char) :=
      match cs with
      | '"' :: rest =>
        let token := readString none rest
        match token.rest with
        | .error f =>
          ([], some (.broken (match token.text with | .error f => f | .ok _ => f) (some f)), none)
        | .ok rest =>
          let name := token.text.map String.ofList
          match skipSpace rest with
          | [] => ([(name, .stop .cutShort)], none, none)
          | c :: rest =>
            if c = ':' then
              match readValue fuel rest with
              | (d, none) => ([(name, d)], none, none)
              | (d, some rest) =>
                let (ms, stray, rest) := readMembers fuel false rest
                ((name, d) :: ms, stray, rest)
            else ([(name, .stop .malformed)], none, none)
      | cs => ([], some (if first then (readValue fuel cs).1 else .stop .malformed), none)
    match skipSpace cs with
    | [] => ([], some (.stop .cutShort), none)
    | c :: rest =>
      if c = '\x7d' then ([], none, some rest)
      else if first then member (c :: rest)
      else if c = ',' then
        match skipSpace rest with
        | [] => ([], some (.stop .cutShort), none)
        | rest => member rest
      else ([], some (.stop .malformed), none)

end

/-- Reads a text: the document at its start, and the fault of what
follows it. -/
def Document.ofText (s : String) : Document × Option Fault :=
  let cs := s.toList
  match readValue (2 * cs.length + 2) cs with
  | (d, none) => (d, none)
  | (d, some rest) => (d, if (skipSpace rest).isEmpty then none else some .malformed)

/-- **The value a text stands for**, if the whole text is one JSON value
of a nesting depth below 128. -/
def ofText (s : String) : Except Fault Json :=
  match Document.ofText s with
  | (d, trailing) =>
    match d.whole 127, trailing with
    | .error f, _ => .error f
    | .ok _, some f => .error f
    | .ok v, none => .ok v

end Switchboard.Json
