import Switchboard.Proofs.Program.Runs

/-!
# Programs that make notes

The exchanges of a program tell what it asked for and what it was told, and
not why. A program that **makes notes** says more as it goes: a note is one
more exchange, with a reply that tells nothing. Where a program panics its
value is lost, and its notes are not.

Leaving the notes out gives a program of the signature below
(`Program.unnoted`), and a program without notes is one that makes none
(`Program.quietly`).

A rule says which calls are allowed after which exchanges. A program
**abides** by it if it makes no call that is not allowed, whatever it is
told; this is a predicate by recursion on the program, which goes through
sequences (`abides_bind`) and says of every run, be its end a value or a
panic, that all calls in it were allowed where they were made
(`Abides.of_runs`).
-/

namespace Switchboard

/-- The calls of a signature, and notes. -/
@[reducible] def Signature.noting (S : Signature) (N : Type) : Signature :=
  ⟨S.Call ⊕ N, Sum.elim S.Reply fun _ => Unit⟩

variable {S : Signature} {N α β : Type}

namespace Program

/-- Makes a note and goes on. -/
def noting (n : N) (m : Program (S.noting N) α) : Program (S.noting N) α :=
  call (.inr n) fun _ => m

/-- A program that makes no notes. -/
def quietly : Program S α → Program (S.noting N) α := interpret fun c => .call (.inl c) .done

/-- **A program without the notes it makes.** -/
def unnoted : Program (S.noting N) α → Program S α :=
  interpret fun
    | .inl c => .call c .done
    | .inr _ => .done ()

theorem unnoted_bind (m : Program (S.noting N) α) (f : α → Program (S.noting N) β) :
    (m.bind f).unnoted = m.unnoted.bind fun a => (f a).unnoted :=
  interpret_bind _ m f

theorem unnoted_noting (n : N) (m : Program (S.noting N) α) : (noting n m).unnoted = m.unnoted :=
  rfl

theorem unnoted_quietly (m : Program S α) : (m.quietly : Program (S.noting N) α).unnoted = m := by
  induction m with
  | done a => rfl
  | panic p => rfl
  | call c next ih => exact congrArg (call c) (funext ih)

end Program

namespace Exchange

/-- An exchange of a program that makes notes, which is not a note. -/
def quiet (x : Exchange S) : Exchange (S.noting N) := ⟨.inl x.call, x.reply⟩

/-- The notes among some exchanges. -/
def notes (t : List (Exchange (S.noting N))) : List N :=
  t.filterMap fun x => x.call.elim (fun _ => none) some

@[simp] theorem notes_nil : notes ([] : List (Exchange (S.noting N))) = [] := rfl

@[simp] theorem notes_append (t u : List (Exchange (S.noting N))) :
    notes (t ++ u) = notes t ++ notes u :=
  List.filterMap_append

@[simp] theorem notes_quiet (t : List (Exchange S)) :
    notes (t.map (quiet : Exchange S → Exchange (S.noting N))) = [] := by
  unfold notes
  rw [List.filterMap_map, List.filterMap_eq_nil_iff]
  exact fun _ _ => rfl

@[simp] theorem notes_note (n : N) (r : (S.noting N).Reply (.inr n)) :
    notes [(⟨.inr n, r⟩ : Exchange (S.noting N))] = [n] :=
  rfl

/-- An exchange that is not a note, as one without notes. -/
def unnoted? : Exchange (S.noting N) → Option (Exchange S)
  | ⟨.inl c, r⟩ => some ⟨c, r⟩
  | ⟨.inr _, _⟩ => none

/-- Exchanges without the notes among them. -/
def unnoted (t : List (Exchange (S.noting N))) : List (Exchange S) := t.filterMap unnoted?

/-- A note that was made was made after some exchanges and before others. -/
theorem mem_notes_iff {t : List (Exchange (S.noting N))} {n : N} :
    n ∈ notes t ↔ ∃ u v, t = u ++ ⟨.inr n, ()⟩ :: v := by
  unfold notes
  rw [List.mem_filterMap]
  constructor
  · rintro ⟨⟨c | m, r⟩, hmem, hn⟩
    · exact absurd hn (by simp)
    · obtain rfl := Option.some.inj hn
      exact List.append_of_mem hmem
  · rintro ⟨u, v, rfl⟩
    exact ⟨_, List.mem_append_right u List.mem_cons_self, rfl⟩

end Exchange

namespace Program

/-- **Every run has its notes**: a run without them is what is left of a run
with them. -/
theorem exists_runs_of_unnoted {m : Program (S.noting N) α} {t : List (Exchange S)}
    {e : Except Payload α} (h : m.unnoted.Runs t e) :
    ∃ t', m.Runs t' e ∧ Exchange.unnoted t' = t := by
  induction m generalizing t with
  | done a =>
    obtain ⟨rfl, rfl⟩ := runs_done_iff.mp h
    exact ⟨[], .done a, rfl⟩
  | panic p =>
    obtain ⟨rfl, rfl⟩ := runs_panic_iff.mp h
    exact ⟨[], .panic p, rfl⟩
  | call c next ih =>
    cases c with
    | inl c =>
      obtain ⟨r, u, rfl, hu⟩ := runs_call_iff.mp h
      obtain ⟨u', hu', rfl⟩ := ih r hu
      exact ⟨⟨.inl c, r⟩ :: u', .call hu', rfl⟩
    | inr n =>
      obtain ⟨t', ht', rfl⟩ := ih () h
      exact ⟨⟨.inr n, ()⟩ :: t', .call ht', rfl⟩

/-- **A program abides by a rule** after some exchanges: it makes a call
only where the rule allows it, and a value it is done with is what it
should be. -/
def Abides (R : List (Exchange S) → S.Call → Prop) (Q : List (Exchange S) → α → Prop) :
    List (Exchange S) → Program S α → Prop
  | past, done a => Q past a
  | _, panic _ => True
  | past, call c next => R past c ∧ ∀ r, Abides R Q (past ++ [⟨c, r⟩]) (next r)

variable {R : List (Exchange S) → S.Call → Prop} {Q : List (Exchange S) → α → Prop}
  {past : List (Exchange S)}

/-- **A sequence abides by a rule** if its first part does and leads to
where the rest does. -/
theorem abides_bind {Q' : List (Exchange S) → β → Prop} {m : Program S α}
    {f : α → Program S β} (hm : m.Abides R Q past)
    (hf : ∀ past a, Q past a → (f a).Abides R Q' past) : (m.bind f).Abides R Q' past := by
  induction m generalizing past with
  | done a => exact hf past a hm
  | panic p => trivial
  | call c next ih => exact ⟨hm.1, fun r => ih r (hm.2 r)⟩

/-- **In a run of a program that abides by a rule**, every call was allowed
where it was made, and the value is what it should be. -/
theorem Abides.of_runs {m : Program S α} (hm : m.Abides R Q past) {t : List (Exchange S)}
    {e : Except Payload α} (hrun : m.Runs t e) :
    (∀ u x v, t = u ++ x :: v → R (past ++ u) x.call) ∧ ∀ a, e = .ok a → Q (past ++ t) a := by
  induction hrun generalizing past with
  | done a =>
    refine ⟨fun u x v h => absurd h (by simp), fun b hb => ?_⟩
    obtain rfl := Except.ok.inj hb
    rw [List.append_nil]
    exact hm
  | panic p => exact ⟨fun u x v h => absurd h (by simp), fun b hb => absurd hb (by simp)⟩
  | @call c next r t e hrun ih =>
    obtain ⟨hcalls, hvalue⟩ := ih (hm.2 r)
    constructor
    · intro u x v h
      cases u with
      | nil =>
        obtain ⟨rfl, -⟩ := List.cons.inj h
        rw [List.append_nil]
        exact hm.1
      | cons y u =>
        obtain ⟨rfl, ht⟩ := List.cons.inj h
        rw [List.append_cons]
        exact hcalls u x v ht
    · intro a ha
      rw [List.append_cons]
      exact hvalue a ha

/-- **A program that makes no notes** abides by a rule that is about notes
only, and every value it comes to is one of a run. -/
theorem abides_quietly {R : List (Exchange (S.noting N)) → (S.noting N).Call → Prop}
    {Q : List (Exchange (S.noting N)) → α → Prop} {past : List (Exchange (S.noting N))}
    {m : Program S α} (hR : ∀ past c, R past (.inl c))
    (hQ : ∀ t a, m.Runs t (.ok a) → Q (past ++ t.map .quiet) a) :
    m.quietly.Abides R Q past := by
  induction m generalizing past with
  | done a =>
    have := hQ [] a (.done a)
    rwa [List.map_nil, List.append_nil] at this
  | panic p => trivial
  | call c next ih =>
    refine ⟨hR past c, fun r => ih r fun t a ht => ?_⟩
    have := hQ (⟨c, r⟩ :: t) a (.call ht)
    rwa [List.map_cons, List.append_cons] at this

end Program

end Switchboard
