import Switchboard.Files.Path

/-!
# What stands behind a slash

A path is cut at its slashes, so what stands behind one of them adds its pieces to the
parts of what stands before it (`Path.parts_append_slash`). A slash at the end adds
an empty piece, which says nothing.
-/

namespace Switchboard

theorem Text.splitOn_append_cons (sep : Char) (cs ds : List Char) :
    splitOn sep (cs ++ sep :: ds) = splitOn sep cs ++ splitOn sep ds := by
  induction cs with
  | nil => simp [splitOn]
  | cons c cs ih =>
    rw [List.cons_append, splitOn, splitOn, ih]
    split
    · rfl
    · cases h : splitOn sep cs with
      | nil => exact absurd h (splitOn_ne_nil sep cs)
      | cons part parts => rfl

namespace Path

theorem pieces_append_slash (p q : String) : pieces (p ++ "/" ++ q) = pieces p ++ pieces q := by
  have hchars : (p ++ "/" ++ q).toList = p.toList ++ '/' :: q.toList := by simp
  rw [pieces, hchars, Text.splitOn_append_cons, List.map_append, pieces, pieces]

/-- **What stands behind a slash adds its pieces**, however it begins. -/
theorem parts_append_slash {p : String} (hp : p ≠ "") (q : String) :
    parts (p ++ "/" ++ q) = parts p ++ (pieces q).filterMap partOf? := by
  have habsolute : isAbsolute (p ++ "/" ++ q) = isAbsolute p := by
    have hchars : p.toList ≠ [] := by simpa using hp
    rw [isAbsolute, isAbsolute, String.toList_append, String.toList_append, List.append_assoc]
    obtain ⟨c, cs, hcons⟩ := List.exists_cons_of_ne_nil hchars
    rw [hcons]
    rfl
  have hfirst : (pieces p ++ pieces q).head? = (pieces p).head? := by
    have hpieces : pieces p ≠ [] := by
      simpa [pieces] using Text.splitOn_ne_nil '/' p.toList
    obtain ⟨piece, rest, hcons⟩ := List.exists_cons_of_ne_nil hpieces
    rw [hcons]
    rfl
  rw [parts, parts, habsolute, pieces_append_slash, hfirst, List.filterMap_append,
    List.append_assoc]

/-- A slash at the end makes no difference. -/
theorem same_append_slash {p : String} (hp : p ≠ "") : same p (p ++ "/") = true := by
  have h := parts_append_slash hp ""
  have hnothing : (pieces "").filterMap partOf? = [] := rfl
  rw [String.append_empty, hnothing, List.append_nil] at h
  exact beq_iff_eq.mpr h.symm

end Path

end Switchboard
