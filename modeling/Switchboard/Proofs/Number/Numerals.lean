import Switchboard.Number.Decimal

/-!
# Numerals

What is written for an integer is its decimal text as core writes it
(`intText_eq_toString`). What is read as one is said without the reader: a sign
or none, and one or more ASCII digits that stand for its value (`Denotes`,
`readInt?_eq_some_iff`). Plus signs and leading zeros are read and never
written, so an integer has many numerals and one text.
-/

namespace Switchboard.Number

/-! ## Writing -/

theorem digitChar_eq {d : Nat} (h : d < 10) : digitChar d = d.digitChar := by
  have hall : ∀ d : Fin 10, digitChar d.val = d.val.digitChar := by decide
  exact hall ⟨d, h⟩

/-- The digits of a number are those core writes. -/
theorem digits_eq_toDigits (n : Nat) : digits n = Nat.toDigits 10 n := by
  induction n using digits.induct with
  | case1 n hn => rw [digits, if_pos hn, Nat.toDigits_of_lt_base hn, digitChar_eq hn]
  | case2 n hn ih =>
    rw [digits, if_neg hn, ih, digitChar_eq (Nat.mod_lt n (by decide)),
      Nat.toDigits_of_base_le (by decide) (Nat.le_of_not_lt hn)]

/-- **The text of an integer is its decimal text.** -/
theorem intText_eq_toString (n : Int) : intText n = toString n := by
  show intText n = n.repr
  rw [Int.repr_eq_if, intText, intChars]
  split
  · next h =>
    have habs : (-n).toNat = n.natAbs := by omega
    rw [if_neg (by omega), habs, Nat.repr_eq_ofList_toDigits, digits_eq_toDigits,
      String.ofList_cons]
    rfl
  · next h =>
    have habs : n.toNat = n.natAbs := by omega
    rw [if_pos (by omega), habs, Nat.repr_eq_ofList_toDigits, digits_eq_toDigits]

/-- Zero is the only number with a zero in front. -/
theorem eq_zero_of_digits {n : Nat} {cs : List Char} (h : digits n = '0' :: cs) : n = 0 := by
  induction n using digits.induct generalizing cs with
  | case1 n hn =>
    rw [digits, if_pos hn] at h
    have hvalue : digitValue (digitChar n) = 0 := congrArg digitValue (List.cons.inj h).1
    rwa [digitValue_digitChar hn] at hvalue
  | case2 n hn ih =>
    rw [digits, if_neg hn] at h
    cases hd : digits (n / 10) with
    | nil => exact absurd hd (digits_ne_nil _)
    | cons c ds =>
      rw [hd] at h
      obtain rfl : c = '0' := (List.cons.inj h).1
      have hzero := ih hd
      omega

/-! ## Reading -/

/-- **Digits that stand for a number**: one or more of them, with their value by
position. -/
structure Numeral (ds : List Char) (n : Nat) : Prop where
  nonempty : ds ≠ []
  digits : ∀ d ∈ ds, d.isDigit = true
  value : Nat.ofDigitChars 10 ds 0 = n

/-- **A text that stands for an integer**: digits, behind a sign or none. -/
inductive Denotes : List Char → Int → Prop
  | plain {ds : List Char} {n : Nat} (h : Numeral ds n) : Denotes ds n
  | plus {ds : List Char} {n : Nat} (h : Numeral ds n) : Denotes ('+' :: ds) n
  | minus {ds : List Char} {n : Nat} (h : Numeral ds n) : Denotes ('-' :: ds) (-(n : Int))

theorem value_eq_ofDigitChars (cs : List Char) : value cs = Nat.ofDigitChars 10 cs 0 :=
  Nat.ofDigitChars_eq_foldl.symm

theorem readNat?_eq_some_iff {cs : List Char} {n : Nat} :
    readNat? cs = some n ↔ Numeral cs n := by
  unfold readNat?
  split
  · next h =>
    rw [Option.some.injEq, value_eq_ofDigitChars]
    exact ⟨fun hvalue => ⟨h.1, List.all_eq_true.mp h.2, hvalue⟩, fun hn => hn.value⟩
  · next h =>
    refine ⟨fun hnone => (nomatch hnone), fun hn => ?_⟩
    exact absurd ⟨hn.nonempty, List.all_eq_true.mpr hn.digits⟩ h

/-- A sign is no digit. -/
theorem Numeral.head {c : Char} {ds : List Char} {n : Nat} (h : Numeral (c :: ds) n) :
    c ≠ '+' ∧ c ≠ '-' := by
  have hc := h.digits c List.mem_cons_self
  constructor <;> rintro rfl <;> exact absurd hc (by decide)

/-- Behind a sign, what is read is the number that the digits stand for. -/
theorem map_readNat?_eq_some_iff {sign : Int → Int} {ds : List Char} {n : Int} :
    (do let k ← readNat? ds; pure (k : Int) : Option Int).map sign = some n ↔
      ∃ k : Nat, Numeral ds k ∧ sign k = n := by
  simp only [← readNat?_eq_some_iff]
  cases readNat? ds <;> simp

/-- **What is read as an integer is what stands for it**, and nothing else. -/
theorem readInt?_eq_some_iff {cs : List Char} {n : Int} :
    readInt? cs = some n ↔ Denotes cs n := by
  constructor
  · intro h
    unfold readInt? at h
    split at h
    · obtain ⟨k, hk, rfl⟩ := map_readNat?_eq_some_iff.mp h
      exact .minus hk
    · obtain ⟨k, hk, rfl⟩ := map_readNat?_eq_some_iff.mp h
      exact .plus hk
    · obtain ⟨k, hk, rfl⟩ := map_readNat?_eq_some_iff.mp h
      exact .plain hk
  · intro h
    cases h with
    | @plus ds k h => exact map_readNat?_eq_some_iff.mpr ⟨k, h, rfl⟩
    | @minus ds k h => exact map_readNat?_eq_some_iff.mpr ⟨k, h, rfl⟩
    | @plain ds k h =>
      unfold readInt?
      split
      · exact absurd rfl h.head.2
      · exact absurd rfl h.head.1
      · exact map_readNat?_eq_some_iff.mpr ⟨k, h, rfl⟩

/-- **The text of an integer stands for it.** -/
theorem denotes_intChars (n : Int) : Denotes (intChars n) n := by
  have hdigits := readNat?_eq_some_iff.mp (readNat?_digits n.natAbs)
  rw [intChars]
  split
  · next h =>
    have habs : -(n.natAbs : Int) = n := by omega
    have hminus := Denotes.minus hdigits
    rwa [habs] at hminus
  · next h =>
    have habs : (n.natAbs : Int) = n := by omega
    have hplain := Denotes.plain hdigits
    rwa [habs] at hplain

end Switchboard.Number
