import Switchboard.Json.Decode
import Switchboard.Text.Blank

/-!
# Identifiers

An identifier is a text that is not blank. It can be given literally, or
as an integer, which stands for its decimal text – so a numeric identifier
equals the literal one of the same numeral, and `Id.toInt?` takes every
identifier that reads as a signed integer of 64 bits back to its number.

Identifiers can also be drawn: `Id.ofEntropy` makes one of 32 hexadecimal
digits from 122 random bits, in the layout of a version 4 universally
unique identifier.
-/

namespace Switchboard

/-- An identifier: a text that is not blank. -/
structure Id where
  text : String
  not_blank : Text.isBlank text = false
deriving DecidableEq

/-- Why a text is no identifier. -/
inductive IdError where
  | empty
  | blank
deriving DecidableEq, Repr

namespace IdError

/-- The message of an error. -/
def message : IdError → String
  | empty => "invalid identifier literal: value is empty"
  | blank => "invalid identifier literal: value is blank"

end IdError

namespace Id

/-- **The identifier with a given text.** -/
def literal (s : String) : Except IdError Id :=
  if h : Text.isBlank s = false then .ok ⟨s, h⟩
  else .error (if s = "" then .empty else .blank)

/-- A text whose first character is not blank is not blank. -/
theorem isBlank_ofList_cons {c : Char} {cs : List Char} (h : Text.isBlankChar c = false) :
    Text.isBlank (String.ofList (c :: cs)) = false := by
  simp [Text.isBlank, h]

/-- A digit is not blank. -/
theorem isBlankChar_of_isDigit {c : Char} (h : Number.isDigit c = true) :
    Text.isBlankChar c = false := by
  have key : Text.blankChars.all (fun b => !Number.isDigit b) = true := by decide
  cases hb : Text.isBlankChar c with
  | false => rfl
  | true =>
    have hc := List.all_eq_true.mp key c (by simpa [Text.isBlankChar] using hb)
    simp [h] at hc

/-- The text of an integer is not blank. -/
theorem isBlank_intText (n : Int) : Text.isBlank (Number.intText n) = false := by
  unfold Number.intText Number.intChars
  split
  · exact isBlank_ofList_cons (by decide)
  · cases hd : Number.digits n.natAbs with
    | nil => exact absurd hd (Number.digits_ne_nil _)
    | cons c cs =>
      exact isBlank_ofList_cons
        (isBlankChar_of_isDigit (Number.isDigit_of_mem_digits (hd ▸ List.mem_cons_self)))

/-- The identifier an integer stands for. -/
def ofInt (n : Int) : Id := ⟨Number.intText n, isBlank_intText n⟩

/-- The signed integer of 64 bits that an identifier reads as. -/
def toInt? (id : Id) : Option Int :=
  (Number.readInt? id.text.toList).filter Number.fitsInt64

/-- The order of identifiers: that of their texts. -/
def compare (a b : Id) : Ordering :=
  if a.text < b.text then .lt else if a.text = b.text then .eq else .gt

/-- Whether an identifier sorts before another or with it. -/
def le (a b : Id) : Bool := a.compare b != .gt

/-- The digits of a number, the lowest first, up to a given count. -/
def hexDigitsOf : Nat → Nat → List Char
  | 0, _ => []
  | count + 1, n => Text.hexDigit (n % 16) :: hexDigitsOf count (n / 16)

/-- The identifier drawn from random bits: 12 digits, the version `4`, 3
digits, a digit from `8` to `b`, and 15 digits. -/
def entropyChars (bits : Nat) : List Char :=
  hexDigitsOf 12 (bits / Number.twoTo 74) ++ '4' :: hexDigitsOf 3 (bits / Number.twoTo 62) ++
    Text.hexDigit (8 + bits / Number.twoTo 60 % 4) :: hexDigitsOf 15 bits

theorem isBlank_entropyChars (bits : Nat) :
    Text.isBlank (String.ofList (entropyChars bits)) = false := by
  rw [Text.isBlank_eq_false_iff]
  exact ⟨'4', by simp [entropyChars], by decide⟩

/-- **An identifier drawn from random bits.** -/
def ofEntropy (bits : Nat) : Id := ⟨String.ofList (entropyChars bits), isBlank_entropyChars bits⟩

theorem length_hexDigitsOf (count n : Nat) : (hexDigitsOf count n).length = count := by
  induction count generalizing n with
  | zero => rfl
  | succ count ih => rw [hexDigitsOf, List.length_cons, ih]

/-- So many digits tell a number up to the power of so many digits. -/
theorem mod_eq_of_hexDigitsOf_eq {count n k : Nat}
    (h : hexDigitsOf count n = hexDigitsOf count k) :
    n % Nat.pow 16 count = k % Nat.pow 16 count := by
  induction count generalizing n k with
  | zero => exact (Nat.mod_one n).trans (Nat.mod_one k).symm
  | succ count ih =>
    obtain ⟨hlow, hrest⟩ := List.cons.inj h
    have hlow : n % 16 = k % 16 :=
      Text.hexDigit_inj (Nat.mod_lt n (by decide)) (Nat.mod_lt k (by decide)) hlow
    show n % (Nat.pow 16 count * 16) = k % (Nat.pow 16 count * 16)
    rw [Nat.mul_comm, Nat.mod_mul, Nat.mod_mul, hlow, ih hrest]

/-- **Different bits make different identifiers**, if there are no more of
them than are read. -/
theorem ofEntropy_inj {a b : Nat} (ha : a < Number.twoTo 122) (hb : b < Number.twoTo 122)
    (h : ofEntropy a = ofEntropy b) : a = b := by
  have hchars : entropyChars a = entropyChars b := String.ofList_injective (congrArg text h)
  obtain ⟨hfirst, hlast⟩ := List.append_inj hchars (by simp [length_hexDigitsOf])
  obtain ⟨hhigh, hmid⟩ := List.append_inj hfirst (by simp [length_hexDigitsOf])
  obtain ⟨hvariant, hlow⟩ := List.cons.inj hlast
  have hhigh := mod_eq_of_hexDigitsOf_eq hhigh
  have hmid := mod_eq_of_hexDigitsOf_eq (List.cons.inj hmid).2
  have hvariant := Text.hexDigit_inj (by omega) (by omega) hvariant
  have hlow := mod_eq_of_hexDigitsOf_eq hlow
  -- the four parts are all the bits there are
  simp only [Number.twoTo, Nat.pow_eq] at ha hb hhigh hmid hvariant hlow
  omega

/-- The text of an identifier for diagnosis. -/
def describe (id : Id) : String := "Id(" ++ Text.quoted id.text ++ ")"

/-- Reads an identifier: a text or an integer of 64 bits. -/
def read (v : Json.View) : Json.Decoded Id :=
  match v.doc with
  | .str s =>
    match literal s with
    | .ok id => .ok id
    | .error e => .error (.shape e.message)
  | .int n => .ok (ofInt n)
  | _ => v.mismatch "a non-blank string or an integer identifier"

/-- An identifier is written as its text. -/
def toJson (id : Id) : Json := .str id.text

/-- The text of a literal identifier is the given one. -/
theorem text_of_literal {s : String} {id : Id} (h : literal s = .ok id) : id.text = s := by
  unfold literal at h
  split at h
  · cases h; rfl
  · cases h

/-- **Exactly the texts that are not blank are identifiers.** -/
theorem literal_eq_ok_iff (s : String) (id : Id) :
    literal s = .ok id ↔ id.text = s := by
  refine ⟨text_of_literal, ?_⟩
  rintro rfl
  simp [literal, id.not_blank]

end Id

end Switchboard
