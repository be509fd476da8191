import Switchboard.Id
import Switchboard.Proofs.Json.Integers

/-!
# Identifiers of numbers

An identifier is given literally, as an integer, or in JSON as a string or an
integer. All ways lead to one identifier, that of the text: an integer stands for
its decimal text, so it does not matter in which form a number is given
(`Id.Agrees`), and every identifier that reads as a number that fits is taken back
to it.

Only the way back loses something. Texts with a plus sign or with leading zeros
read as numbers, too, but the identifiers of these numbers have other texts, and a
number beyond the signed words of 64 bits is not taken back at all
(`Id.ofInt_agrees`).
-/

namespace Switchboard.Id

open Json (Document decode isSpace)

variable {id : Id} {n : Int} {s t : String}

/-- An identifier is read back from its JSON form. -/
@[simp] theorem read_toJson (id : Id) (room : Nat) :
    Id.read ⟨.ofJson id.toJson, room⟩ = .ok id := by
  simp only [Id.read, Id.toJson, Document.ofJson, (Id.literal_eq_ok_iff id.text id).mpr rfl]

/-! ## Texts -/

/-- **What gives an identifier for a text** gives the one with this text, and gives
one exactly if there is a character in it that is not blank. -/
structure Accepts {ε : Type} (s : String) (r : Except ε Id) : Prop where
  text : ∀ id, r = .ok id → id.text = s
  exists_iff : (∃ id, r = .ok id) ↔ ∃ c ∈ s.toList, c ∉ Text.blankChars

theorem accepts_of_iff {ε : Type} {r : Except ε Id} (h : ∀ id, r = .ok id ↔ id.text = s) :
    Accepts s r where
  text id := (h id).mp
  exists_iff := by
    rw [← Text.isBlank_eq_false_iff_exists]
    constructor
    · rintro ⟨id, hid⟩
      exact (h id).mp hid ▸ id.not_blank
    · exact fun hs => ⟨⟨s, hs⟩, (h _).mpr rfl⟩

/-- What a JSON string is read as is the identifier of the text it holds. -/
theorem decode_string (ht : Document.ofText t = (.str s, none)) :
    decode read t = .ok id ↔ id.text = s := by
  rw [← literal_eq_ok_iff, decode, ht]
  cases h : literal s <;> simp [read, h, Json.View.check, bind, Except.bind, pure, Except.pure]

/-! ## Numbers -/

/-- What an identifier reads as is what its text stands for, if it fits. -/
theorem toInt?_eq_some_iff : id.toInt? = some n ↔
    Number.Denotes id.text.toList n ∧ -0x8000000000000000 ≤ n ∧ n ≤ 0x7fffffffffffffff := by
  rw [toInt?, Option.filter_eq_some_iff, Number.readInt?_eq_some_iff, Number.fitsInt64,
    Bool.and_eq_true, decide_eq_true_eq, decide_eq_true_eq]
  exact and_congr_right fun _ => by omega

/-- The identifier of an integer reads as this one, if it fits. -/
theorem toInt?_ofInt_iff : (ofInt n).toInt? = some n ↔
    -0x8000000000000000 ≤ n ∧ n ≤ 0x7fffffffffffffff := by
  have hdenotes : Number.Denotes (ofInt n).text.toList n := by
    show Number.Denotes (String.ofList (Number.intChars n)).toList n
    rw [String.toList_ofList]
    exact Number.denotes_intChars n
  rw [toInt?_eq_some_iff, and_iff_right hdenotes]

/-- **All ways to give a number lead to one identifier**: it can be given as it is,
by its decimal text, or as an integer in a JSON text, with blanks around it. -/
structure Agrees (n : Int) : Prop where
  valid : ∃ c ∈ (ofInt n).text.toList, c ∉ Text.blankChars
  literal : literal (toString n) = .ok (ofInt n)
  decoded : ∀ before after : List Char, (∀ c ∈ before ++ after, isSpace c = true) →
    decode read (String.ofList (before ++ (toString n).toList ++ after)) = .ok (ofInt n)

theorem agrees_of_fits (h : Number.fitsInt64 n = true ∨ Number.fitsUInt64 n = true) :
    Agrees n where
  valid := (accepts_of_iff (literal_eq_ok_iff _)).exists_iff.mp
    ⟨ofInt n, (literal_eq_ok_iff _ _).mpr rfl⟩
  literal := (literal_eq_ok_iff _ _).mpr (Number.intText_eq_toString n)
  decoded before after hblank := by
    obtain ⟨hbefore, hafter⟩ := List.forall_mem_append.mp hblank
    rw [← Number.intText_eq_toString, decode, Json.ofText_intText h hbefore hafter]
    rfl

/-- **Numbers and texts agree on identifiers.** Every number of 64 bits, and so every
one of 32 bits, makes one identifier in whichever way it is given, and a signed one
is taken back from it. An identifier reads as a number exactly if its text is a sign
or none and ASCII digits, and stands for a signed number of 64 bits. It is read back
from the JSON string it is written as. Literals and JSON strings are accepted if they
are not blank. -/
theorem ofInt_agrees :
    (∀ n, Number.fitsInt64 n = true → Agrees n ∧ (ofInt n).toInt? = some n) ∧
      (∀ n, Number.fitsUInt64 n = true →
        Agrees n ∧ ((ofInt n).toInt? = some n ↔ n ≤ 0x7fffffffffffffff)) ∧
      (∀ (id : Id) (n : Int), id.toInt? = some n ↔ Number.Denotes id.text.toList n ∧
        -0x8000000000000000 ≤ n ∧ n ≤ 0x7fffffffffffffff) ∧
      (∀ id : Id, Document.ofText id.toJson.text = (.str id.text, none) ∧
        decode read id.toJson.text = .ok id) ∧
      ∀ s, Accepts s (literal s) ∧
        ∀ t, Document.ofText t = (.str s, none) → Accepts s (decode read t) := by
  refine ⟨fun n h => ⟨agrees_of_fits (.inl h), ?_⟩, fun n h => ⟨agrees_of_fits (.inr h), ?_⟩,
    fun id n => toInt?_eq_some_iff, fun id => ?_, fun s => ?_⟩
  · simp only [Number.fitsInt64, Bool.and_eq_true, decide_eq_true_eq] at h
    exact toInt?_ofInt_iff.mpr (by omega)
  · simp only [Number.fitsUInt64, Bool.and_eq_true, decide_eq_true_eq] at h
    rw [toInt?_ofInt_iff]
    omega
  · have hstring : id.toJson.isNumberless = true := rfl
    exact ⟨Json.ofText_text hstring, (Json.decode_text hstring read).trans (read_toJson id 127)⟩
  · exact ⟨accepts_of_iff (literal_eq_ok_iff s), fun t ht => accepts_of_iff fun _ => decode_string ht⟩

/-- The least signed number is taken back, the greatest unsigned one is not. A sign and
zeros in front are read and stay in the text. A string that is one blank is refused. -/
theorem ofInt_agrees_limits :
    (ofInt (-0x8000000000000000)).toInt? = some (-0x8000000000000000) ∧
      decode read " 18446744073709551615\n" = .ok (ofInt 0xffffffffffffffff) ∧
      (ofInt 0xffffffffffffffff).toInt? ≠ some 0xffffffffffffffff ∧
      (∃ id, decode read "\"\\u002b007\"" = .ok id ∧ id.toInt? = some 7 ∧ id ≠ ofInt 7) ∧
      ¬∃ id, decode read "\"\\u3000\"" = .ok id := by
  obtain ⟨hsigned, hunsigned, hreads, -, htexts⟩ := ofInt_agrees
  obtain ⟨hgreatest, htaken⟩ := hunsigned 0xffffffffffffffff (by decide)
  refine ⟨(hsigned _ (by decide)).2, ?_, fun h => absurd (htaken.mp h) (by decide), ?_, ?_⟩
  · exact hgreatest.decoded [' '] ['\n'] (List.all_eq_true.mp (by decide))
  · have hstring : Document.ofText "\"\\u002b007\"" = (.str "+007", none) := rfl
    have haccepts := (htexts "+007").2 _ hstring
    obtain ⟨id, hid⟩ := haccepts.exists_iff.mpr ⟨'+', by decide, by decide⟩
    have htext := haccepts.text id hid
    have hseven : Number.Denotes "+007".toList 7 :=
      Number.Denotes.plus ⟨by decide, List.all_eq_true.mp (by decide), by decide⟩
    refine ⟨id, hid, (hreads id 7).mpr ⟨htext ▸ hseven, by decide⟩, ?_⟩
    rintro rfl
    exact absurd ((Number.intText_eq_toString 7).symm.trans htext) (by decide)
  · have hstring : Document.ofText "\"\\u3000\"" = (.str "\u3000", none) := rfl
    have haccepts := (htexts "\u3000").2 _ hstring
    have hblank := (Text.isBlank_iff "\u3000").mp (by decide)
    intro h
    obtain ⟨c, hc, hnot⟩ := haccepts.exists_iff.mp h
    exact hnot (hblank c hc)

/-- Zero with a minus sign is a float, and no identifier. -/
example : Document.ofText "-0" = (.float (.finite true 0 (-1074)), none) := rfl

end Switchboard.Id
