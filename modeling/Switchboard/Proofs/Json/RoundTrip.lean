import Switchboard.Json.Decode

/-!
# Reading what was written

A value without numbers is read back from its text. The writer and the
reader share nothing but the grammar: the one escapes a character by what it
is, the other goes by the letter behind a backslash, the one puts commas
between items, the other looks for one behind each. So the proof goes through
them side by side. A character is read back from how it is written
(`readString_escapeChar`), a string from its characters, and a value, the
items of an array and the members of an object from theirs, together
(`readValue_chars`), whatever is written behind them.

The reader is bounded by the length of the text. What is left of a text gets
shorter with each value, and so the bound is never reached.
-/

namespace Switchboard.Json

/-! ## Strings -/

/-- The digit for a number below sixteen stands for this number. -/
theorem hexValue?_hexDigit {d : Nat} (hd : d < 16) : hexValue? (Text.hexDigit d) = some d := by
  have hall : ∀ d : Fin 16, hexValue? (Text.hexDigit d) = some d.val := by decide
  exact hall ⟨d, hd⟩

/-- A control character below the space is read back from its number. -/
theorem readString_control {c : Char} (hc : c.toNat < 32) (cs : List Char) :
    readString none ('\\' :: 'u' :: '0' :: '0' :: Text.hexDigit (c.toNat / 16) ::
      Text.hexDigit (c.toNat % 16) :: cs) = (readString none cs).cons c := by
  have hzero : hexValue? '0' = some 0 := by decide
  have hword : hexWord? '0' '0' (Text.hexDigit (c.toNat / 16)) (Text.hexDigit (c.toNat % 16))
      = some c.toNat := by
    unfold hexWord?
    rw [hzero, hexValue?_hexDigit (by omega), hexValue?_hexDigit (by omega)]
    simp only [Option.some.injEq]
    omega
  have hlow : c.toNat < 0xd800 := by omega
  conv => lhs; unfold readString
  simp only [hword, hlow, true_or, if_true, Char.ofNat_toNat]

/-- A character that needs no escape is read as it is. -/
theorem readString_plain {c : Char} (hquote : c ≠ '"') (hslash : c ≠ '\\')
    (hc : ¬ c.toNat < 32) (cs : List Char) :
    readString none (c :: cs) = (readString none cs).cons c := by
  conv => lhs; unfold readString
  split
  · next h => exact absurd h (by simp)
  · next h => exact absurd (List.cons.inj h).1 hquote
  · next h => exact absurd (List.cons.inj h).1 hslash
  · next h => exact absurd (List.cons.inj h).1 hslash
  · next h => exact absurd (List.cons.inj h).1 hslash
  · next h => exact absurd (List.cons.inj h).1 hslash
  · next h =>
    obtain ⟨rfl, rfl⟩ := List.cons.inj h
    exact if_neg hc

/-- **A character is read back from how it is written** inside a string. -/
theorem readString_escapeChar (c : Char) (cs : List Char) :
    readString none (escapeChar c ++ cs) = (readString none cs).cons c := by
  unfold escapeChar
  -- the escapes with a letter of their own
  split
  · next h => subst h; rfl
  split
  · next h => subst h; rfl
  split
  · next h => subst h; rfl
  split
  · next h => subst h; rfl
  split
  · next h => subst h; rfl
  split
  · next h => subst h; rfl
  split
  · next h => subst h; rfl
  split
  · next h => exact readString_control h cs
  · next hquote hslash _ _ _ _ _ hc => exact readString_plain hquote hslash hc cs

/-- **A string is read back** from behind its opening quote. -/
theorem readString_flatMap (s rest : List Char) :
    readString none (s.flatMap escapeChar ++ '"' :: rest) = ⟨.ok s, .ok rest⟩ := by
  induction s with
  | nil => rfl
  | cons c s ih =>
    rw [List.flatMap_cons, List.append_assoc, readString_escapeChar, ih]
    rfl

theorem stringChars_append (s : String) (rest : List Char) :
    stringChars s ++ rest = '"' :: (s.toList.flatMap escapeChar ++ '"' :: rest) := by
  simp [stringChars]

/-! ## Values -/

mutual

/-- Whether a value has no numbers in it. -/
def isNumberless : Json → Bool
  | int _ => false
  | float _ => false
  | arr items => areNumberless items
  | obj members => haveNumberless members
  | _ => true

/-- Whether several values have no numbers in them. -/
def areNumberless : List Json → Bool
  | [] => true
  | v :: vs => isNumberless v && areNumberless vs

/-- Whether the values of members have no numbers in them. -/
def haveNumberless : List (String × Json) → Bool
  | [] => true
  | (_, v) :: ms => isNumberless v && haveNumberless ms

end

/-- What stands behind an item of an array: the other items, each behind a
comma, and the bracket. -/
def itemTail : List Json → List Char → List Char
  | [], rest => ']' :: rest
  | v :: vs, rest => ',' :: (chars v ++ itemTail vs rest)

/-- What stands behind a member of an object. -/
def memberTail : List (String × Json) → List Char → List Char
  | [], rest => '\x7d' :: rest
  | (n, v) :: ms, rest => ',' :: (stringChars n ++ ':' :: (chars v ++ memberTail ms rest))

theorem itemChars_cons (v : Json) (vs : List Json) (rest : List Char) :
    itemChars (v :: vs) ++ ']' :: rest = chars v ++ itemTail vs rest := by
  induction vs generalizing v with
  | nil => rfl
  | cons w vs ih =>
    show (chars v ++ ',' :: itemChars (w :: vs)) ++ ']' :: rest = _
    rw [List.append_assoc, List.cons_append, ih]
    rfl

theorem memberChars_cons (n : String) (v : Json) (ms : List (String × Json)) (rest : List Char) :
    memberChars ((n, v) :: ms) ++ '\x7d' :: rest
      = stringChars n ++ ':' :: (chars v ++ memberTail ms rest) := by
  induction ms generalizing n v with
  | nil => simp [memberChars, memberTail]
  | cons m ms ih =>
    obtain ⟨k, w⟩ := m
    show (stringChars n ++ ':' :: chars v ++ ',' :: memberChars ((k, w) :: ms)) ++ '\x7d' :: rest
      = stringChars n ++ ':' :: (chars v ++ ',' :: (stringChars k ++ ':' :: _))
    rw [← ih]
    simp

/-- A value begins with a character that is no blank and closes nothing. -/
theorem chars_eq_cons {v : Json} (hv : v.isNumberless = true) :
    ∃ c cs, chars v = c :: cs ∧ isSpace c = false ∧ c ≠ ']' := by
  cases v with
  | null => exact ⟨_, _, rfl, by decide, by decide⟩
  | bool b => cases b <;> exact ⟨_, _, rfl, by decide, by decide⟩
  | int n => exact absurd hv Bool.false_ne_true
  | float x => exact absurd hv Bool.false_ne_true
  | str s => exact ⟨_, _, rfl, by decide, by decide⟩
  | arr items => exact ⟨_, _, rfl, by decide, by decide⟩
  | obj members => exact ⟨_, _, rfl, by decide, by decide⟩

/-- A text that does not begin with a blank has no blanks to skip. -/
theorem skipSpace_cons {c : Char} (hc : isSpace c = false) (cs : List Char) :
    skipSpace (c :: cs) = c :: cs := by
  unfold skipSpace
  rw [List.dropWhile_cons, hc]
  rfl

theorem two_le_length_chars {v : Json} (hv : v.isNumberless = true) : 2 ≤ (chars v).length := by
  cases v with
  | null => decide
  | bool b => cases b <;> decide
  | int n => exact absurd hv Bool.false_ne_true
  | float x => exact absurd hv Bool.false_ne_true
  | str s => simp [chars, stringChars]
  | arr items => simp [chars]
  | obj members => simp [chars]

section Steps

variable {fuel : Nat} {rest : List Char}

/-- A string is read back. -/
theorem readValue_string (s : String) (rest : List Char) :
    readValue (fuel + 1) (stringChars s ++ rest) = (.str s, some rest) := by
  rw [stringChars_append]
  unfold readValue
  rw [skipSpace_cons (by decide)]
  simp [readString_flatMap]

theorem readWord_append (d : Document) (word rest : List Char) :
    readWord d word (word ++ rest) = (d, some rest) := by
  induction word with
  | nil => rfl
  | cons c word ih =>
    rw [List.cons_append, readWord, if_pos rfl]
    exact ih

/-- A word is read back, by its first letter. -/
theorem readValue_word {c : Char} {word : List Char} {d : Document}
    (h : readValue (fuel + 1) (c :: (word ++ rest)) = readWord d word (word ++ rest)) :
    readValue (fuel + 1) (c :: word ++ rest) = (d, some rest) :=
  h.trans (readWord_append d word rest)

/-- The items of an array are read if what stands inside the brackets is. -/
theorem readValue_arr {cs : List Char} {ds : List Document}
    (h : readItems fuel true cs = (ds, none, some rest)) :
    readValue (fuel + 1) ('[' :: cs) = (.arr ds none, some rest) := by
  unfold readValue
  rw [skipSpace_cons (by decide)]
  simp [h]

/-- The members of an object are read if what stands inside the braces is. -/
theorem readValue_obj {cs : List Char} {ms : List (Except Fault String × Document)}
    (h : readMembers fuel true cs = (ms, none, some rest)) :
    readValue (fuel + 1) ('\x7b' :: cs) = (.obj ms none, some rest) := by
  unfold readValue
  rw [skipSpace_cons (by decide)]
  simp [h]

/-- The first item of an array is read, and then those behind it. -/
theorem readItems_first {c : Char} {cs : List Char} {d : Document} {ds : List Document}
    {behind : List Char} (hspace : isSpace c = false) (hc : c ≠ ']')
    (hfirst : readValue fuel (c :: cs) = (d, some behind))
    (hmore : readItems fuel false behind = (ds, none, some rest)) :
    readItems (fuel + 1) true (c :: cs) = (d :: ds, none, some rest) := by
  unfold readItems
  rw [skipSpace_cons hspace]
  simp [hc, hfirst, hmore]

/-- An item behind a comma is read, and then those behind it. -/
theorem readItems_next {c : Char} {cs : List Char} {d : Document} {ds : List Document}
    {behind : List Char} (hspace : isSpace c = false) (hc : c ≠ ']')
    (hnext : readValue fuel (c :: cs) = (d, some behind))
    (hmore : readItems fuel false behind = (ds, none, some rest)) :
    readItems (fuel + 1) false (',' :: c :: cs) = (d :: ds, none, some rest) := by
  unfold readItems
  rw [skipSpace_cons (by decide)]
  simp only [skipSpace_cons hspace]
  simp [hc, hnext, hmore]

/-- Behind the last item the bracket closes the array. -/
theorem readItems_close (first : Bool) :
    readItems (fuel + 1) first (']' :: rest) = ([], none, some rest) := by
  unfold readItems
  rw [skipSpace_cons (by decide)]
  simp

/-- The first member of an object is read, and then those behind it. -/
theorem readMembers_first {n : String} {cs : List Char} {d : Document}
    {ms : List (Except Fault String × Document)} {behind : List Char}
    (hfirst : readValue fuel cs = (d, some behind))
    (hmore : readMembers fuel false behind = (ms, none, some rest)) :
    readMembers (fuel + 1) true (stringChars n ++ ':' :: cs)
      = ((.ok n, d) :: ms, none, some rest) := by
  have hcolon : skipSpace (':' :: cs) = ':' :: cs := skipSpace_cons (by decide) cs
  rw [stringChars_append]
  unfold readMembers
  rw [skipSpace_cons (by decide)]
  simp [readString_flatMap, hcolon, hfirst, hmore, Except.map]

/-- A member behind a comma is read, and then those behind it. -/
theorem readMembers_next {n : String} {cs : List Char} {d : Document}
    {ms : List (Except Fault String × Document)} {behind : List Char}
    (hnext : readValue fuel cs = (d, some behind))
    (hmore : readMembers fuel false behind = (ms, none, some rest)) :
    readMembers (fuel + 1) false (',' :: (stringChars n ++ ':' :: cs))
      = ((.ok n, d) :: ms, none, some rest) := by
  have hcolon : skipSpace (':' :: cs) = ':' :: cs := skipSpace_cons (by decide) cs
  have hquote : ∀ cs, skipSpace ('"' :: cs) = '"' :: cs := skipSpace_cons (by decide)
  rw [stringChars_append]
  unfold readMembers
  rw [skipSpace_cons (by decide)]
  simp [readString_flatMap, hcolon, hquote, hnext, hmore, Except.map]

/-- Behind the last member the brace closes the object. -/
theorem readMembers_close (first : Bool) :
    readMembers (fuel + 1) first ('\x7d' :: rest) = ([], none, some rest) := by
  unfold readMembers
  rw [skipSpace_cons (by decide)]
  simp

end Steps

mutual

/-- **A value is read back from its characters**, whatever stands behind
them. -/
theorem readValue_chars (v : Json) (hv : v.isNumberless = true) (fuel : Nat) (rest : List Char)
    (hfuel : 2 * (chars v ++ rest).length ≤ fuel) :
    readValue fuel (chars v ++ rest) = (.ofJson v, some rest) := by
  have hlen := two_le_length_chars hv
  obtain ⟨fuel, rfl⟩ : ∃ k, fuel = k + 2 := ⟨fuel - 2, by rw [List.length_append] at hfuel; omega⟩
  match v with
  | null => exact readValue_word rfl
  | bool true => exact readValue_word rfl
  | bool false => exact readValue_word rfl
  | int n => exact absurd hv Bool.false_ne_true
  | float x => exact absurd hv Bool.false_ne_true
  | str s => exact readValue_string s rest
  | arr [] => exact readValue_arr (readItems_close true)
  | obj [] => exact readValue_obj (readMembers_close true)
  | arr (v :: vs) =>
    have htext : chars (.arr (v :: vs)) ++ rest = '[' :: (chars v ++ itemTail vs rest) := by
      rw [← itemChars_cons]
      simp [chars]
    obtain ⟨hv, hvs⟩ := Bool.and_eq_true_iff.mp hv
    obtain ⟨c, cs, hc, hspace, hne⟩ := chars_eq_cons hv
    have hlen := two_le_length_chars hv
    rw [htext, List.length_cons, List.length_append] at hfuel
    have hfirst := readValue_chars v hv fuel (itemTail vs rest)
      (by rw [List.length_append]; omega)
    have hmore := readItems_tail vs hvs fuel rest (by omega)
    rw [htext, hc]
    rw [hc] at hfirst
    exact readValue_arr (readItems_first hspace hne hfirst hmore)
  | obj ((n, v) :: ms) =>
    have htext : chars (.obj ((n, v) :: ms)) ++ rest
        = '\x7b' :: (stringChars n ++ ':' :: (chars v ++ memberTail ms rest)) := by
      rw [← memberChars_cons]
      simp [chars]
    obtain ⟨hv, hms⟩ := Bool.and_eq_true_iff.mp hv
    have hlen := two_le_length_chars hv
    rw [htext, List.length_cons, List.length_append, List.length_cons, List.length_append]
      at hfuel
    rw [htext]
    exact readValue_obj (readMembers_first
      (readValue_chars v hv fuel (memberTail ms rest) (by rw [List.length_append]; omega))
      (readMembers_tail ms hms fuel rest (by omega)))

/-- The items of an array are read back from behind the first one. -/
theorem readItems_tail (vs : List Json) (hvs : areNumberless vs = true) (fuel : Nat)
    (rest : List Char) (hfuel : 2 * (itemTail vs rest).length < fuel) :
    readItems fuel false (itemTail vs rest) = (Document.ofItems vs, none, some rest) := by
  obtain ⟨fuel, rfl⟩ : ∃ k, fuel = k + 1 := ⟨fuel - 1, by omega⟩
  match vs with
  | [] => exact readItems_close false
  | v :: vs =>
    obtain ⟨hv, hvs⟩ := Bool.and_eq_true_iff.mp hvs
    obtain ⟨c, cs, hc, hspace, hne⟩ := chars_eq_cons hv
    have hlen := two_le_length_chars hv
    rw [itemTail, List.length_cons, List.length_append] at hfuel
    have hvalue := readValue_chars v hv fuel (itemTail vs rest)
      (by rw [List.length_append]; omega)
    have hmore := readItems_tail vs hvs fuel rest (by omega)
    rw [itemTail, hc]
    rw [hc] at hvalue
    exact readItems_next hspace hne hvalue hmore

/-- The members of an object are read back from behind the first one. -/
theorem readMembers_tail (ms : List (String × Json)) (hms : haveNumberless ms = true) (fuel : Nat)
    (rest : List Char) (hfuel : 2 * (memberTail ms rest).length < fuel) :
    readMembers fuel false (memberTail ms rest) = (Document.ofMembers ms, none, some rest) := by
  obtain ⟨fuel, rfl⟩ : ∃ k, fuel = k + 1 := ⟨fuel - 1, by omega⟩
  match ms with
  | [] => exact readMembers_close false
  | (n, v) :: ms =>
    obtain ⟨hv, hms⟩ := Bool.and_eq_true_iff.mp hms
    have hlen := two_le_length_chars hv
    rw [memberTail, List.length_cons, List.length_append, List.length_cons,
      List.length_append] at hfuel
    exact readMembers_next
      (readValue_chars v hv fuel (memberTail ms rest) (by rw [List.length_append]; omega))
      (readMembers_tail ms hms fuel rest (by omega))

end

/-- **A value without numbers is read back from its text**, and nothing is
left behind it. -/
theorem ofText_text {v : Json} (hv : v.isNumberless = true) :
    Document.ofText v.text = (.ofJson v, none) := by
  have hread := readValue_chars v hv (2 * (chars v).length + 2) [] (by simp)
  rw [List.append_nil] at hread
  simp only [Document.ofText, text, String.toList_ofList, hread]
  rfl

/-- So what a decoder takes from its text is what it takes from the value. -/
theorem decode_text {α : Type} {v : Json} (hv : v.isNumberless = true) (f : View → Decoded α) :
    decode f v.text = decodeValue f v := by
  simp only [decode, decodeValue, ofText_text hv]
  cases f ⟨.ofJson v, 127⟩ <;> rfl

end Switchboard.Json
