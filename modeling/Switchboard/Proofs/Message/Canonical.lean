import Mathlib
import Switchboard.Message
import Switchboard.Proofs.Id.Numeric

/-!
# The canonical text of a message

A message is read back from the text it is written as. The decoder of a
segment does not know the kind before it has seen all members, and reads the
field after it, by the kind; so the proof is one case for each kind, and each
of them says that this decoder and `Segment.toJson` agree on the names.

Reading forgets the order of the members, the members with other names, the
escapes and the blanks, and whether a numeric identifier was given as a
number. What is written for the message that was read is therefore one text
for all the texts that say the same (`toText_canonical`).
-/

namespace Switchboard

open Json

/-- Several values are read back from their JSON forms if each one is. -/
theorem Json.View.mapM_ofItems {α : Type} {f : View → Decoded α} {g : α → Json} {room : Nat}
    (h : ∀ a, f ⟨.ofJson (g a), room⟩ = .ok a) (as : List α) :
    (Document.ofItems (as.map g)).mapM (fun d => f ⟨d, room⟩) = .ok as := by
  induction as with
  | nil => rfl
  | cons a as ih =>
    rw [List.map_cons, Document.ofItems, List.mapM_cons, h, ih]
    rfl

/-- A list is read back from the array of its items' JSON forms if each item
is. -/
theorem Json.View.list_ofJson {α : Type} {f : View → Decoded α} {g : α → Json} {room : Nat}
    (h : ∀ a, f ⟨.ofJson (g a), room⟩ = .ok a) (as : List α) :
    View.list f ⟨.ofJson (.arr (as.map g)), room + 1⟩ = .ok as := by
  simp only [View.list, Document.ofJson, View.enter, Nat.add_one_ne_zero, if_false,
    Nat.add_sub_cancel]
  show ((Document.ofItems (as.map g)).mapM (fun d => f ⟨d, room⟩) >>= fun vs =>
    (View.check none >>= fun _ => pure vs)) = _
  rw [mapM_ofItems h]
  rfl

namespace Segment

/-- Behind its kind, the one field of a segment is handed to the kind's
reader. -/
theorem read_of_fieldReader (kind : String) {name title : String}
    {reader : View → Decoded Segment}
    (hreader : fieldReader kind = some (name, title, reader)) (hkind : kinds.contains kind = true)
    (hname : name ≠ "type") (s : String) (room : Nat) :
    read ⟨.ofJson (.obj [("type", .str kind), (name, .str s)]), room + 1⟩
      = reader ⟨.str s, room⟩ := by
  have hsplit : splitMembers room none (Document.ofMembers [("type", .str kind), (name, .str s)])
      = .ok (some kind, [(name, .str s)]) := by
    simp only [splitMembers, Document.ofMembers, Document.ofJson, View.nameOf, View.optionName,
      Document.whole, hkind, hname, bind, Except.bind, pure, Except.pure, if_true, if_false,
      Option.isSome_none, Bool.false_eq_true]
  have hfield : readField name reader room none [(name, .str s)] = reader ⟨.str s, room⟩ := by
    simp only [readField, if_true, Option.isSome_none, Bool.false_eq_true, if_false]
    cases reader ⟨.str s, room⟩ <;> rfl
  simp only [read, Document.ofJson, View.enter, Nat.add_one_ne_zero, if_false,
    Nat.add_sub_cancel, hsplit, bind, Except.bind, View.check, Option.map_none, hreader]
  exact hfield

/-- A segment whose field is an identifier is read back. -/
theorem read_of_idReader (kind : String) {name title : String} {wrap : Id → Segment}
    (hreader : fieldReader kind = some (name, title, fun v => (Id.read v).map wrap))
    (hkind : kinds.contains kind = true) (hname : name ≠ "type") (id : Id) (room : Nat) :
    read ⟨.ofJson (.obj [("type", .str kind), (name, id.toJson)]), room + 1⟩ = .ok (wrap id) :=
  (read_of_fieldReader kind hreader hkind hname id.text room).trans
    (congrArg (Except.map wrap) (id.read_toJson room))

/-- **A segment is read back from its JSON form.** -/
theorem read_toJson (s : Segment) (room : Nat) : read ⟨.ofJson s.toJson, room + 1⟩ = .ok s := by
  cases s with
  | text s => exact read_of_fieldReader "text" rfl rfl (by decide) s room
  | mention id => exact read_of_idReader "at" rfl rfl (by decide) id room
  | mentionAll => rfl
  | face id => exact read_of_idReader "face" rfl rfl (by decide) id room
  | emoji id => exact read_of_idReader "emoji" rfl rfl (by decide) id room
  | image id => exact read_of_idReader "image" rfl rfl (by decide) id room

/-- There are no numbers in the JSON form of a segment. -/
theorem isNumberless_toJson (s : Segment) : s.toJson.isNumberless = true := by
  cases s <;> rfl

end Segment

namespace Message

/-- A message is read back from its JSON form. -/
theorem read_toJson (m : Message) (room : Nat) : read ⟨.ofJson m.toJson, room + 2⟩ = .ok m := by
  rw [read, toJson, View.list_ofJson (fun s => Segment.read_toJson s room)]
  rfl

/-- There are no numbers in the JSON form of a message. -/
theorem isNumberless_toJson (m : Message) : m.toJson.isNumberless = true := by
  show areNumberless (m.segments.map Segment.toJson) = true
  induction m.segments with
  | nil => rfl
  | cons s ss ih =>
    rw [List.map_cons, areNumberless, Segment.isNumberless_toJson, ih]
    rfl

/-- **A message is read back from its text.** -/
theorem ofJsonText_toText (m : Message) : ofJsonText m.toText = .ok m :=
  (decode_text m.isNumberless_toJson read).trans (m.read_toJson 125)

/-- Different messages have different texts. -/
theorem toText_injective : Function.Injective toText := by
  intro m n h
  have hread := m.ofJsonText_toText
  rw [h, ofJsonText_toText] at hread
  exact (Except.ok.inj hread).symm

/-- **What is written for a message is the canonical one of its texts.** -/
theorem toText_canonical :
    (∀ m : Message, Document.ofText m.toText = (.ofJson m.toJson, none)
      ∧ ofJsonText m.toText = .ok m)
    ∧ Function.Injective toText
    ∧ ∀ (t : String) (m : Message), ofJsonText t = .ok m →
      ofJsonText m.toText = .ok m
      ∧ (ofJsonText m.toText).map toText = .ok m.toText
      ∧ ∀ u, ofJsonText u = .ok m ↔ (ofJsonText u).map toText = .ok m.toText := by
  refine ⟨fun m => ⟨ofText_text m.isNumberless_toJson, m.ofJsonText_toText⟩, toText_injective, ?_⟩
  intro t m _
  have hread := m.ofJsonText_toText
  refine ⟨hread, by rw [hread]; rfl, fun u => ?_⟩
  cases h : ofJsonText u with
  | error e => simp [Except.map]
  | ok n => simp [Except.map, toText_injective.eq_iff]

/-- A text that is read and not written again: it has members in another order
and one too many, a character given by its number, another in two halves, and
a segment that is an array with a number in it. -/
theorem toText_canonical_reordered :
    ∃ (t : String) (m : Message), ofJsonText t = .ok m ∧ t ≠ m.toText
      ∧ ofJsonText m.toText = .ok m
      ∧ (ofJsonText m.toText).map toText = .ok m.toText
      ∧ ∀ u, ofJsonText u = .ok m ↔ (ofJsonText u).map toText = .ok m.toText := by
  have hread : ofJsonText
      "[\x7b\"text\": \"\\u0041\\ud83d\\ude00\", \"x\": [], \"type\": \"text\"\x7d, [\"at\", 7]]"
      = .ok ⟨[.text "A😀", .mention (Id.ofInt 7)]⟩ := by cbv
  have htext : toText ⟨[.text "A😀", .mention (Id.ofInt 7)]⟩ =
    "[\x7b\"type\":\"text\",\"text\":\"A😀\"\x7d,\x7b\"type\":\"at\",\"target\":\"7\"\x7d]" := by
    cbv
  exact ⟨_, _, hread, by rw [htext]; decide, toText_canonical.2.2 _ _ hread⟩

end Message

end Switchboard
