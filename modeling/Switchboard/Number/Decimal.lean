/-!
# Decimal numerals

A natural number is written with the fewest decimal digits, and read back
by the usual positional value. `value_digits` says that reading undoes
writing, and `digits_ne_nil` that something is always written.

An integer takes a minus sign when it is negative. Reading is more
generous: `readInt?` also takes a plus sign and leading zeros, and refuses
everything that is not a sign followed by one or more ASCII digits.
-/

namespace Switchboard.Number

/-- The character of a digit below ten. -/
def digitChar (d : Nat) : Char := Char.ofNat (48 + d)

/-- The value of a digit character. -/
def digitValue (c : Char) : Nat := c.toNat - 48

/-- Whether a character is one of the ten ASCII digits. -/
def isDigit (c : Char) : Bool := '0' ≤ c && c ≤ '9'

/-- The decimal digits of a number, without leading zeros; zero is written `0`. -/
def digits (n : Nat) : List Char :=
  if n < 10 then [digitChar n] else digits (n / 10) ++ [digitChar (n % 10)]
termination_by n
decreasing_by omega

/-- The positional value of a list of digits. -/
def value (cs : List Char) : Nat := cs.foldl (fun n c => 10 * n + digitValue c) 0

/-- The text of a natural number. -/
def natText (n : Nat) : String := String.ofList (digits n)

/-- The characters of an integer: its digits, behind a minus sign if it is negative. -/
def intChars (n : Int) : List Char := if n < 0 then '-' :: digits n.natAbs else digits n.natAbs

/-- The text of an integer. -/
def intText (n : Int) : String := String.ofList (intChars n)

/-- Reads one or more digits, and nothing else. -/
def readNat? (cs : List Char) : Option Nat :=
  if cs ≠ [] ∧ cs.all isDigit = true then some (value cs) else none

/-- Reads an optional sign and one or more digits, and nothing else. -/
def readInt? : List Char → Option Int
  | '-' :: cs => (readNat? cs).map fun n => -(n : Int)
  | '+' :: cs => (readNat? cs).map fun n => (n : Int)
  | cs => (readNat? cs).map fun n => (n : Int)

/-- Whether an integer fits a signed word of 64 bits. -/
def fitsInt64 (n : Int) : Bool := -0x8000000000000000 ≤ n && n < 0x8000000000000000

/-- Whether an integer fits an unsigned word of 64 bits. -/
def fitsUInt64 (n : Int) : Bool := 0 ≤ n && n < 0x10000000000000000

/-- Whether an integer fits a signed word of 32 bits. -/
def fitsInt32 (n : Int) : Bool := -0x80000000 ≤ n && n < 0x80000000

theorem digitValue_digitChar {d : Nat} (h : d < 10) : digitValue (digitChar d) = d := by
  have : ∀ d : Fin 10, digitValue (digitChar d.val) = d.val := by decide
  exact this ⟨d, h⟩

theorem isDigit_digitChar {d : Nat} (h : d < 10) : isDigit (digitChar d) = true := by
  have : ∀ d : Fin 10, isDigit (digitChar d.val) = true := by decide
  exact this ⟨d, h⟩

/-- Something is always written. -/
theorem digits_ne_nil (n : Nat) : digits n ≠ [] := by
  unfold digits
  split <;> simp

/-- Only digits are written. -/
theorem isDigit_of_mem_digits {n : Nat} {c : Char} (h : c ∈ digits n) : isDigit c = true := by
  induction n using digits.induct with
  | case1 n hn =>
    rw [digits, if_pos hn] at h
    rw [List.mem_singleton.mp h]
    exact isDigit_digitChar hn
  | case2 n hn ih =>
    rw [digits, if_neg hn] at h
    rcases List.mem_append.mp h with h | h
    · exact ih h
    · rw [List.mem_singleton.mp h]
      exact isDigit_digitChar (Nat.mod_lt _ (by omega))

theorem value_append_singleton (cs : List Char) (c : Char) :
    value (cs ++ [c]) = 10 * value cs + digitValue c := by
  simp [value]

/-- **Reading undoes writing.** -/
theorem value_digits (n : Nat) : value (digits n) = n := by
  induction n using digits.induct with
  | case1 n hn =>
    rw [digits, if_pos hn]
    simp [value, digitValue_digitChar hn]
  | case2 n hn ih =>
    rw [digits, if_neg hn, value_append_singleton, ih,
      digitValue_digitChar (Nat.mod_lt _ (by omega))]
    omega

/-- What is written is read back. -/
theorem readNat?_digits (n : Nat) : readNat? (digits n) = some n := by
  unfold readNat?
  rw [if_pos ⟨digits_ne_nil n, List.all_eq_true.mpr fun _ => isDigit_of_mem_digits⟩, value_digits]

end Switchboard.Number
