import Mathlib.Data.List.TakeWhile
import Switchboard.Proofs.Json.RoundTrip
import Switchboard.Proofs.Number.Numerals

/-!
# The integers of a text

A document can hold any integer, but the reader makes only those that fit a
word of 64 bits, with a sign or without (`fits_ofText`). A longer number is a
float, and so is zero with a minus sign. The integers that fit are all read back
from their decimal texts (`ofText_intText`).

The bound comes from one place, the word that the digits of a number are taken
into (`fillWord_le`). The rest is an induction on the fuel, for a value, the
items of an array and the members of an object together.
-/

namespace Switchboard.Json

open Switchboard.Number (Binary64 digits isDigit)

/-- **All integers in a document fit a word of 64 bits**, with a sign or
without. What stands in the place of a name is not looked at. -/
inductive Document.Fits : Document → Prop
  | null : Fits .null
  | bool (b : Bool) : Fits (.bool b)
  | int {n : Int} (h : Number.fitsInt64 n = true ∨ Number.fitsUInt64 n = true) : Fits (.int n)
  | float (x : Binary64) : Fits (.float x)
  | str (s : String) : Fits (.str s)
  | arr {items : List Document} {fault : Option Fault} (h : ∀ d ∈ items, Fits d) :
      Fits (.arr items fault)
  | obj {members : List (Except Fault String × Document)} {stray : Option Document}
      (h : ∀ m ∈ members, Fits m.2) : Fits (.obj members stray)
  | broken (reading : Fault) (passing : Option Fault) : Fits (.broken reading passing)

/-! ## Numbers -/

/-- Digits are taken only as long as they fit. -/
theorem fillWord_le {word : Nat} (h : word ≤ maxWord) (cs : List Char) :
    (fillWord word cs).1 ≤ maxWord := by
  induction cs generalizing word with
  | nil => exact h
  | cons c cs ih =>
    simp only [fillWord]
    split
    case isTrue => exact h
    case isFalse hnext => exact ih (Nat.le_of_not_lt hnext)

/-- The value of a number token fits. -/
theorem NumberToken.fits_of_value? {t : NumberToken} {d : Document} (h : t.value? = some d) :
    d.Fits := by
  have hword : (fillWord 0 t.whole).1 ≤ maxWord := fillWord_le (Nat.zero_le _) t.whole
  unfold value? at h
  simp only [maxWord] at hword h
  split at h
  · -- a plain sequence of digits
    split at h
    · cases h
      refine .int (.inr ?_)
      simp only [Number.fitsUInt64, Bool.and_eq_true, decide_eq_true_eq]
      omega
    · split at h
      · cases h
        exact .float _
      · cases h
        refine .int (.inl ?_)
        simp only [Number.fitsInt64, Bool.and_eq_true, decide_eq_true_eq]
        omega
  · split at h
    · split at h
      · cases h
        exact .float _
      · cases h
    · split at h
      · cases h
        exact .float _
      · obtain ⟨x, -, rfl⟩ := Option.map_eq_some_iff.mp h
        exact .float _

theorem fits_finishNumber (t : NumberToken) (rest : List Char) : (finishNumber t rest).1.Fits := by
  unfold finishNumber
  cases h : t.value? with
  | none => exact .broken _ _
  | some d => exact NumberToken.fits_of_value? h

theorem fits_readExponent (t : NumberToken) (cs : List Char) : (readExponent t cs).1.Fits := by
  unfold readExponent
  split
  · exact fits_finishNumber _ _
  · split
    · split
      simp only
      split
      · exact .broken _ _
      · exact fits_finishNumber _ _
    · exact fits_finishNumber _ _

theorem fits_readFraction (t : NumberToken) (cs : List Char) : (readFraction t cs).1.Fits := by
  unfold readFraction
  split
  · simp only
    split
    · exact .broken _ _
    · exact fits_readExponent _ _
  · exact fits_readExponent _ _

/-- A number is read as one that fits. -/
theorem fits_readNumber (negative : Bool) (cs : List Char) :
    (readNumber negative cs).1.Fits := by
  unfold readNumber
  split
  · split
    · split
      · exact .broken _ _
      · exact fits_readFraction _ _
    · exact fits_readFraction _ _
  · simp only
    split
    · exact .broken _ _
    · exact fits_readFraction _ _

/-! ## Values -/

theorem fits_readWord {v : Document} (hv : v.Fits) (word rest : List Char) :
    (readWord v word rest).1.Fits := by
  induction word generalizing rest with
  | nil => simpa [readWord] using hv
  | cons c word ih =>
    cases rest with
    | nil => exact .broken _ _
    | cons d rest =>
      rw [readWord]
      split
      · exact ih rest
      · exact .broken _ _

/-- **What is read fits**, with so much fuel. -/
structure ReadsFitting (fuel : Nat) : Prop where
  value : ∀ {cs d rest}, readValue fuel cs = (d, rest) → d.Fits
  items : ∀ {first cs ds fault rest}, readItems fuel first cs = (ds, fault, rest) →
    ∀ d ∈ ds, d.Fits
  members : ∀ {first cs ms stray rest}, readMembers fuel first cs = (ms, stray, rest) →
    ∀ m ∈ ms, m.2.Fits

namespace ReadsFitting

variable {fuel : Nat}

/-- A value of any kind fits if its parts do. -/
theorem value_step (ih : ReadsFitting fuel) {cs : List Char} {d : Document}
    {rest : Option (List Char)} (h : readValue (fuel + 1) cs = (d, rest)) : d.Fits := by
  have hd : (readValue (fuel + 1) cs).1 = d := congrArg Prod.fst h
  rw [← hd, readValue]
  split
  · exact .broken _ _
  · repeat' split
    · exact fits_readWord .null _ _
    · exact fits_readWord (.bool true) _ _
    · exact fits_readWord (.bool false) _ _
    · exact .str _
    · exact .broken _ _
    · exact .broken _ _
    · exact .broken _ _
    next hread => exact .arr (ih.items hread)
    next hread => exact .obj (ih.members hread)
    · exact fits_readNumber _ _
    · exact fits_readNumber _ _
    · exact .broken _ _

/-- Where an item is read, it and those behind it fit. -/
theorem items_step (ih : ReadsFitting fuel) {first : Bool} {cs : List Char} {ds : List Document}
    {fault : Option Fault} {rest : Option (List Char)}
    (h : readItems (fuel + 1) first cs = (ds, fault, rest)) : ∀ d ∈ ds, d.Fits := by
  rw [readItems] at h
  repeat' split at h
  -- an item may stand in two places, and is read in the same way in both
  all_goals try dsimp only at h
  all_goals repeat' split at h
  all_goals cases h
  all_goals first
    | exact List.forall_mem_nil _
    | exact List.forall_mem_singleton.mpr (.broken _ _)
    | next hvalue => exact List.forall_mem_singleton.mpr (ih.value hvalue)
    | next hvalue => exact List.forall_mem_cons.mpr ⟨ih.value hvalue, ih.items rfl⟩

/-- Where a member is read, it and those behind it fit. -/
theorem members_step (ih : ReadsFitting fuel) {first : Bool} {cs : List Char}
    {ms : List (Except Fault String × Document)} {stray : Option Document}
    {rest : Option (List Char)} (h : readMembers (fuel + 1) first cs = (ms, stray, rest)) :
    ∀ m ∈ ms, m.2.Fits := by
  rw [readMembers] at h
  repeat' split at h
  all_goals try dsimp only at h
  all_goals repeat' split at h
  all_goals cases h
  all_goals first
    | exact List.forall_mem_nil _
    | exact List.forall_mem_singleton.mpr (.broken _ _)
    | next hvalue => exact List.forall_mem_singleton.mpr (ih.value hvalue)
    | next hvalue => exact List.forall_mem_cons.mpr ⟨ih.value hvalue, ih.members rfl⟩

end ReadsFitting

/-- **What is read fits**, however far the reader gets. -/
theorem readsFitting (fuel : Nat) : ReadsFitting fuel := by
  induction fuel with
  | zero =>
    refine ⟨fun h => ?_, fun h => ?_, fun h => ?_⟩
    · rw [readValue] at h
      cases h
      exact .broken _ _
    · rw [readItems] at h
      cases h
      simp
    · rw [readMembers] at h
      cases h
      simp
  | succ fuel ih => exact ⟨ih.value_step, ih.items_step, ih.members_step⟩

/-- **The integers of a text fit**, as far as it can be read. -/
theorem fits_ofText (s : String) : (Document.ofText s).1.Fits := by
  unfold Document.ofText
  simp only
  split
  next hread => exact (readsFitting _).value hread
  next hread => exact (readsFitting _).value hread

/-! ## Texts of integers -/

/-- Digits are taken as far as they go if their value fits. -/
theorem fillWord_eq {word : Nat} {cs : List Char} (h : Nat.ofDigitChars 10 cs word ≤ maxWord) :
    fillWord word cs = (Nat.ofDigitChars 10 cs word, []) := by
  induction cs generalizing word with
  | nil => rw [fillWord, Nat.ofDigitChars_nil]
  | cons c cs ih =>
    have hstep : Nat.ofDigitChars 10 (c :: cs) word =
        Nat.ofDigitChars 10 cs (10 * word + Number.digitValue c) := Nat.ofDigitChars_cons
    rw [hstep] at h ⊢
    -- the value only grows from here
    have hle : 10 * word + Number.digitValue c ≤
        Nat.ofDigitChars 10 cs (10 * word + Number.digitValue c) := by
      rw [Nat.ofDigitChars_eq_ofDigitChars_zero]
      exact Nat.le_add_right_of_le (Nat.le_mul_of_pos_left _ (Nat.pow_pos (by decide)))
    rw [fillWord]
    exact (if_neg (by omega)).trans (ih h)

theorem fillWord_digits {n : Nat} (h : n ≤ maxWord) : fillWord 0 (digits n) = (n, []) := by
  have hvalue : Nat.ofDigitChars 10 (digits n) 0 = n := by
    rw [← Number.value_eq_ofDigitChars, Number.value_digits]
  rw [fillWord_eq (by rwa [hvalue]), hvalue]

/-- A blank is none of the characters that are not. -/
theorem ne_of_isSpace {c d : Char} (hc : isSpace c = true) (hd : isSpace d = false) : c ≠ d := by
  rintro rfl
  exact absurd hc (by rw [hd]; decide)

theorem isDigit_of_isSpace {c : Char} (h : isSpace c = true) : isDigit c = false := by
  simp only [isSpace, Bool.or_eq_true, beq_iff_eq] at h
  rcases h with ((rfl | rfl) | rfl) | rfl <;> decide

section Blanks

variable {rest : List Char} (hrest : ∀ c ∈ rest, isSpace c = true)

include hrest

/-- With a blank a number is over. -/
theorem readFraction_blank (t : NumberToken) : readFraction t rest = finishNumber t rest := by
  cases rest with
  | nil => rfl
  | cons c rest =>
    have hc := hrest c List.mem_cons_self
    unfold readFraction
    split
    · next heq => exact absurd (List.cons.inj heq).1 (ne_of_isSpace hc (by decide))
    · have hexponent : ¬(c = 'e' ∨ c = 'E') := fun h =>
        h.elim (ne_of_isSpace hc (by decide)) (ne_of_isSpace hc (by decide))
      unfold readExponent
      exact if_neg hexponent

theorem takeWhile_digits (n : Nat) : (digits n ++ rest).takeWhile isDigit = digits n := by
  rw [List.takeWhile_append_of_pos fun c => Number.isDigit_of_mem_digits]
  cases rest with
  | nil => rw [List.takeWhile_nil, List.append_nil]
  | cons c rest =>
    rw [List.takeWhile_cons, isDigit_of_isSpace (hrest c List.mem_cons_self)]
    exact List.append_nil _

theorem dropWhile_digits (n : Nat) : (digits n ++ rest).dropWhile isDigit = rest := by
  rw [List.dropWhile_append_of_pos fun c => Number.isDigit_of_mem_digits]
  cases rest with
  | nil => rfl
  | cons c rest =>
    rw [List.dropWhile_cons, isDigit_of_isSpace (hrest c List.mem_cons_self)]
    rfl

/-- Zero is read by its one digit. -/
theorem readNumber_zero (negative : Bool) :
    readNumber negative ('0' :: rest) = finishNumber ⟨negative, ['0'], none, none⟩ rest := by
  have hfraction := readFraction_blank hrest ⟨negative, ['0'], none, none⟩
  cases rest with
  | nil => exact hfraction
  | cons c rest =>
    have hc := isDigit_of_isSpace (hrest c List.mem_cons_self)
    rw [readNumber, hc]
    exact hfraction

/-- **A number is read back from its digits**, with blanks behind them. -/
theorem readNumber_digits (negative : Bool) (n : Nat) :
    readNumber negative (digits n ++ rest) =
      finishNumber ⟨negative, digits n, none, none⟩ rest := by
  by_cases hn : n = 0
  · subst hn
    have hzero : digits 0 = ['0'] := by rw [digits, if_pos (by decide)]; rfl
    rw [hzero]
    exact readNumber_zero hrest negative
  · unfold readNumber
    split
    · next r heq =>
      -- only zero is written with a zero in front
      cases hd : digits n with
      | nil => exact absurd hd (Number.digits_ne_nil n)
      | cons c cs =>
        rw [hd] at heq
        obtain rfl : c = '0' := (List.cons.inj heq).1
        exact absurd (Number.eq_zero_of_digits hd) hn
    · simp only [takeWhile_digits hrest, dropWhile_digits hrest, List.isEmpty_iff,
        Number.digits_ne_nil, if_false]
      exact readFraction_blank hrest _

end Blanks

/-- The sign and the size of an integer are those of a number token. -/
theorem value?_digits {n : Int} (h : Number.fitsInt64 n = true ∨ Number.fitsUInt64 n = true) :
    NumberToken.value? ⟨decide (n < 0), digits n.natAbs, none, none⟩ = some (.int n) := by
  simp only [Number.fitsInt64, Number.fitsUInt64, Bool.and_eq_true, decide_eq_true_eq] at h
  have hfill : fillWord 0 (digits n.natAbs) = (n.natAbs, []) :=
    fillWord_digits (by unfold maxWord; omega)
  unfold NumberToken.value?
  simp only [hfill, Bool.not_eq_true', decide_eq_false_iff_not]
  split
  · next hn =>
    have habs : (n.natAbs : Int) = n := by omega
    rw [habs]
  · next hn =>
    have habs : -(n.natAbs : Int) = n := by omega
    rw [if_neg (by omega), habs]

section Steps

variable {fuel : Nat}

/-- Blanks in front of a value are skipped. -/
theorem readValue_append {before : List Char} (h : ∀ c ∈ before, isSpace c = true)
    (cs : List Char) : readValue (fuel + 1) (before ++ cs) = readValue (fuel + 1) cs := by
  have hskip : skipSpace (before ++ cs) = skipSpace cs := List.dropWhile_append_of_pos h
  rw [readValue, hskip]
  rw [readValue]

theorem readValue_minus (cs : List Char) :
    readValue (fuel + 1) ('-' :: cs) = readNumber true cs := by
  rw [readValue, skipSpace_cons (by decide)]
  rfl

theorem readValue_digit {c : Char} (hc : isDigit c = true) (cs : List Char) :
    readValue (fuel + 1) (c :: cs) = readNumber false (c :: cs) := by
  have hne : ∀ d, isDigit d = false → c ≠ d := by
    rintro d hd rfl
    exact absurd hc (by rw [hd]; decide)
  have hspace : isSpace c = false := by
    cases hspace : isSpace c with
    | false => rfl
    | true => exact absurd hc (by rw [isDigit_of_isSpace hspace]; decide)
  rw [readValue, skipSpace_cons hspace]
  simp only [hne 'n' (by decide), hne 't' (by decide), hne 'f' (by decide), hne '"' (by decide),
    hne '[' (by decide), hne '\x7b' (by decide), hne '-' (by decide), hc, if_true, if_false]

end Steps

/-- **An integer is read back from its characters**, with blanks behind them. -/
theorem readValue_intChars {n : Int} (h : Number.fitsInt64 n = true ∨ Number.fitsUInt64 n = true)
    {rest : List Char} (hrest : ∀ c ∈ rest, isSpace c = true) (fuel : Nat) :
    readValue (fuel + 1) (Number.intChars n ++ rest) = (.int n, some rest) := by
  have hnumber : ∀ negative, negative = decide (n < 0) →
      readNumber negative (digits n.natAbs ++ rest) = (.int n, some rest) := by
    rintro _ rfl
    rw [readNumber_digits hrest, finishNumber, value?_digits h, Option.getD_some]
  unfold Number.intChars
  split
  · next hn => rw [List.cons_append, readValue_minus, hnumber true (decide_eq_true hn).symm]
  · next hn =>
    have hplain := hnumber false (decide_eq_false hn).symm
    cases hd : digits n.natAbs with
    | nil => exact absurd hd (Number.digits_ne_nil _)
    | cons c cs =>
      have hc : isDigit c = true := Number.isDigit_of_mem_digits (hd ▸ List.mem_cons_self)
      rw [hd] at hplain
      rw [List.cons_append, readValue_digit hc]
      exact hplain

/-- **An integer is read back from its text**, with blanks around it. -/
theorem ofText_intText {n : Int} (h : Number.fitsInt64 n = true ∨ Number.fitsUInt64 n = true)
    {before after : List Char} (hbefore : ∀ c ∈ before, isSpace c = true)
    (hafter : ∀ c ∈ after, isSpace c = true) :
    Document.ofText (String.ofList (before ++ (Number.intText n).toList ++ after)) =
      (.int n, none) := by
  have hskip : skipSpace after = [] := List.dropWhile_eq_nil_iff.mpr hafter
  rw [Document.ofText, String.toList_ofList, Number.intText, String.toList_ofList]
  simp only [List.append_assoc, readValue_append hbefore, readValue_intChars h hafter, hskip]
  rfl

end Switchboard.Json
