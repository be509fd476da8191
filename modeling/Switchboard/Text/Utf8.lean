/-!
# Text as bytes

Texts are stored in UTF-8. `pieces` cuts a list of bytes into characters
and into places where there is none: the longest start of a character that
is not finished counts as one such place, and so does a byte that starts
no character. A list of bytes without such places is a text (`decode?`);
in any other one, each of them can be read as the replacement character
(`decodeLossy`).

The bytes in which a text is stored (`encode`) stand for it
(`decode?_encode`).
-/

namespace Switchboard.Text.Utf8

/-- The start of a character: how many bytes are owed, between which
bounds the next one must be, and the value so far. -/
structure Start where
  owed : Nat
  low : Nat
  high : Nat
  value : Nat

/-- What a byte is where a character may start. -/
inductive Lead where
  | char (c : Char)
  | start (s : Start)
  | stray

/-- What a byte is where a character may start. -/
def lead (b : Nat) : Lead :=
  if b < 0x80 then .char (Char.ofNat b)
  else if b < 0xc2 then .stray
  else if b < 0xe0 then .start ⟨1, 0x80, 0xbf, b - 0xc0⟩
  else if b < 0xf0 then
    .start ⟨2, if b = 0xe0 then 0xa0 else 0x80, if b = 0xed then 0x9f else 0xbf, b - 0xe0⟩
  else if b < 0xf5 then
    .start ⟨3, if b = 0xf0 then 0x90 else 0x80, if b = 0xf4 then 0x8f else 0xbf, b - 0xf0⟩
  else .stray

/-- The value after one more byte. -/
def Start.extend (s : Start) (b : Nat) : Nat := s.value * 64 + b % 64

/-- The characters in a list of bytes, and the places where there is none;
`before` is the start of a character that the bytes go on with. -/
def pieces (before : Option Start) : List UInt8 → List (Option Char)
  | [] => if before.isSome then [none] else []
  | b :: rest =>
    let fresh :=
      match lead b.toNat with
      | .char c => some c :: pieces none rest
      | .start s => pieces (some s) rest
      | .stray => none :: pieces none rest
    match before with
    | none => fresh
    | some s =>
      if s.low ≤ b.toNat ∧ b.toNat ≤ s.high then
        if s.owed ≤ 1 then some (Char.ofNat (s.extend b.toNat)) :: pieces none rest
        else pieces (some ⟨s.owed - 1, 0x80, 0xbf, s.extend b.toNat⟩) rest
      else none :: fresh

/-- **The text that bytes stand for**, if they stand for one. -/
def decode? (bytes : List UInt8) : Option String :=
  ((pieces none bytes).mapM id).map String.ofList

/-- The text that bytes stand for, with the replacement character wherever
they stand for none. -/
def decodeLossy (bytes : List UInt8) : String :=
  String.ofList ((pieces none bytes).map (·.getD '\ufffd'))

/-- The bytes in which a text is stored. -/
def encode (s : String) : List UInt8 := s.toList.flatMap String.utf8EncodeChar

/-! ## Reading what was stored -/

theorem toNat_ofNat {k : Nat} (hk : k < 256) : (UInt8.ofNat k).toNat = k :=
  (UInt8.toNat_ofNat').trans (Nat.mod_eq_of_lt hk)

/-- A byte that is a character by itself. -/
theorem pieces_single {k : Nat} {c : Char} (rest : List UInt8) (hk : k < 256)
    (h : lead k = .char c) : pieces none (UInt8.ofNat k :: rest) = some c :: pieces none rest := by
  simp only [pieces, toNat_ofNat hk, h]

/-- A byte that starts a character. -/
theorem pieces_start {k : Nat} {s : Start} (rest : List UInt8) (hk : k < 256)
    (h : lead k = .start s) : pieces none (UInt8.ofNat k :: rest) = pieces (some s) rest := by
  simp only [pieces, toNat_ofNat hk, h]

/-- A byte that a character goes on with, and is not finished with. -/
theorem pieces_next {k : Nat} {s : Start} (rest : List UInt8) (hk : k < 256) (hlow : s.low ≤ k)
    (hhigh : k ≤ s.high) (howed : 1 < s.owed) :
    pieces (some s) (UInt8.ofNat k :: rest)
      = pieces (some ⟨s.owed - 1, 0x80, 0xbf, s.extend k⟩) rest := by
  simp only [pieces, toNat_ofNat hk]
  rw [if_pos ⟨hlow, hhigh⟩, if_neg (by omega)]

/-- The last byte of a character. -/
theorem pieces_last {k : Nat} {s : Start} (rest : List UInt8) (hk : k < 256) (hlow : s.low ≤ k)
    (hhigh : k ≤ s.high) (howed : s.owed = 1) :
    pieces (some s) (UInt8.ofNat k :: rest)
      = some (Char.ofNat (s.extend k)) :: pieces none rest := by
  simp only [pieces, toNat_ofNat hk]
  rw [if_pos ⟨hlow, hhigh⟩, if_pos (by omega)]

/-- The bytes of a character are read as the character, whatever follows. -/
theorem pieces_char (c : Char) (rest : List UInt8) :
    pieces none (String.utf8EncodeChar c ++ rest) = some c :: pieces none rest := by
  have hvalid : c.toNat < 0xd800 ∨ 0xdfff < c.toNat ∧ c.toNat < 0x110000 := c.valid
  have hc : c = Char.ofNat c.toNat := (Char.ofNat_toNat c).symm
  unfold String.utf8EncodeChar
  rw [show c.val.toNat = c.toNat from rfl]
  generalize c.toNat = v at hvalid hc
  subst hc
  simp only
  split
  · exact pieces_single rest (by omega) (if_pos (by omega))
  split
  · have hlead : lead (v / 64 % 32 + 192) = .start ⟨1, 0x80, 0xbf, v / 64 % 32⟩ := by
      unfold lead
      rw [if_neg (by omega), if_neg (by omega), if_pos (by omega), Nat.add_sub_cancel]
    rw [List.cons_append, List.cons_append, pieces_start _ (by omega) hlead,
      pieces_last _ (by omega) (by simp) (by simp; omega) rfl]
    refine congrArg (fun n => some (Char.ofNat n) :: pieces none rest) ?_
    simp only [Start.extend]
    omega
  split
  · have hlead : lead (v / 4096 % 16 + 224) = .start ⟨2, if v / 4096 = 0 then 0xa0 else 0x80,
        if v / 4096 = 13 then 0x9f else 0xbf, v / 4096⟩ := by
      unfold lead
      rw [if_neg (by omega), if_neg (by omega), if_neg (by omega), if_pos (by omega)]
      refine congrArg Lead.start ?_
      rw [Start.mk.injEq]
      grind
    rw [List.cons_append, List.cons_append, List.cons_append, pieces_start _ (by omega) hlead,
      pieces_next _ (by omega) (by grind) (by grind) (by simp),
      pieces_last _ (by omega) (by simp) (by simp; omega) rfl]
    refine congrArg (fun n => some (Char.ofNat n) :: pieces none rest) ?_
    simp only [Start.extend]
    omega
  · have hlead : lead (v / 262144 % 8 + 240) = .start ⟨3, if v / 262144 = 0 then 0x90 else 0x80,
        if v / 262144 = 4 then 0x8f else 0xbf, v / 262144⟩ := by
      unfold lead
      rw [if_neg (by omega), if_neg (by omega), if_neg (by omega), if_neg (by omega),
        if_pos (by omega)]
      refine congrArg Lead.start ?_
      rw [Start.mk.injEq]
      grind
    rw [List.cons_append, List.cons_append, List.cons_append, List.cons_append,
      pieces_start _ (by omega) hlead, pieces_next _ (by omega) (by grind) (by grind) (by simp),
      pieces_next _ (by omega) (by simp) (by simp; omega) (by simp),
      pieces_last _ (by omega) (by simp) (by simp; omega) rfl]
    refine congrArg (fun n => some (Char.ofNat n) :: pieces none rest) ?_
    simp only [Start.extend]
    omega

/-- **What is stored is read again.** -/
theorem decode?_encode (s : String) : decode? (encode s) = some s := by
  have key : ∀ cs : List Char,
      pieces none (cs.flatMap String.utf8EncodeChar) = cs.map some := by
    intro cs
    induction cs with
    | nil => rfl
    | cons c cs ih => rw [List.flatMap_cons, pieces_char, ih, List.map_cons]
  have hread : ∀ cs : List Char, (cs.map some).mapM id = some cs := by
    intro cs
    induction cs with
    | nil => rfl
    | cons c cs ih => rw [List.map_cons, List.mapM_cons, ih]; rfl
  rw [decode?, encode, key, hread, Option.map_some, String.ofList_toList]

end Switchboard.Text.Utf8
