import Switchboard.Program.Basic

/-!
# Runs of programs

A program is a tree, and what it does depends on the replies it is given.
A **run** is one path through the tree: the exchanges it made, in order,
and the end it came to, a value or a panic. Nothing is assumed about the
replies, so a statement about all runs of a program is a statement about
everything that can happen around it – other programs that have their turn
while it waits, changes made behind its back, code of the user that gives
one answer today and another one tomorrow.

Runs are read off the parts of a program: a run of a sequence is a run of
its first part followed by a run of the rest (`runs_bind_iff`), and a run
of a recovered program is a run of the program, be its end a value or a
panic (`runs_recover_iff`). Both hold in both directions, so a statement
about runs of a program built from parts never has to look into the parts.

`Program.Only` says that a program makes no exchanges but those of a given
sort. It is how one part of a program is told from another by what it does.
-/

namespace Switchboard

/-- A call of a program with the reply it was given. -/
structure Exchange (S : Signature) where
  call : S.Call
  reply : S.Reply call

namespace Program

variable {S T : Signature} {α β : Type}

/-- **A program runs through a list of exchanges to an end**: to a value
it is done with, or to a panic. -/
inductive Runs : Program S α → List (Exchange S) → Except Payload α → Prop
  | done (a : α) : Runs (done a) [] (.ok a)
  | panic (p : Payload) : Runs (panic p) [] (.error p)
  | call {c : S.Call} {next : S.Reply c → Program S α} {r : S.Reply c}
      {t : List (Exchange S)} {e : Except Payload α} :
      Runs (next r) t e → Runs (call c next) (⟨c, r⟩ :: t) e

theorem runs_done_iff {a : α} {t : List (Exchange S)} {e : Except Payload α} :
    (done a : Program S α).Runs t e ↔ t = [] ∧ e = .ok a := by
  constructor
  · intro h
    cases h
    exact ⟨rfl, rfl⟩
  · rintro ⟨rfl, rfl⟩
    exact .done a

theorem runs_panic_iff {p : Payload} {t : List (Exchange S)} {e : Except Payload α} :
    (panic p : Program S α).Runs t e ↔ t = [] ∧ e = .error p := by
  constructor
  · intro h
    cases h
    exact ⟨rfl, rfl⟩
  · rintro ⟨rfl, rfl⟩
    exact .panic p

theorem runs_call_iff {c : S.Call} {next : S.Reply c → Program S α}
    {t : List (Exchange S)} {e : Except Payload α} :
    (call c next).Runs t e ↔ ∃ r u, t = ⟨c, r⟩ :: u ∧ (next r).Runs u e := by
  constructor
  · intro h
    cases h with
    | call h => exact ⟨_, _, rfl, h⟩
  · rintro ⟨r, u, rfl, h⟩
    exact .call h

/-- **A run of a sequence** ends in a panic of its first part, or is a run
of the first part followed by a run of the rest. -/
theorem runs_bind_iff {m : Program S α} {f : α → Program S β}
    {t : List (Exchange S)} {e : Except Payload β} :
    (m.bind f).Runs t e ↔
      (∃ p, e = .error p ∧ m.Runs t (.error p)) ∨
        ∃ a u v, t = u ++ v ∧ m.Runs u (.ok a) ∧ (f a).Runs v e := by
  induction m generalizing t with
  | done a =>
    simp only [done_bind, runs_done_iff, Except.ok.injEq, reduceCtorEq, and_false,
      exists_false, false_or]
    constructor
    · intro h
      exact ⟨a, [], t, rfl, ⟨rfl, rfl⟩, h⟩
    · rintro ⟨_, _, v, rfl, ⟨rfl, rfl⟩, h⟩
      exact h
  | panic p =>
    simp only [panic_bind, runs_panic_iff, Except.error.injEq, reduceCtorEq, and_false,
      false_and, exists_false, or_false]
    constructor
    · rintro ⟨rfl, rfl⟩
      exact ⟨p, rfl, rfl, rfl⟩
    · rintro ⟨_, rfl, rfl, rfl⟩
      exact ⟨rfl, rfl⟩
  | call c next ih =>
    simp only [call_bind, runs_call_iff, ih]
    constructor
    · rintro ⟨r, u, rfl, ⟨p, rfl, hp⟩ | ⟨a, v, w, rfl, hv, hw⟩⟩
      · exact .inl ⟨p, rfl, r, u, rfl, hp⟩
      · exact .inr ⟨a, ⟨c, r⟩ :: v, w, rfl, ⟨r, v, rfl, hv⟩, hw⟩
    · rintro (⟨p, rfl, r, u, rfl, hp⟩ | ⟨a, u, w, rfl, ⟨r, v, rfl, hv⟩, hw⟩)
      · exact ⟨r, u, rfl, .inl ⟨p, rfl, hp⟩⟩
      · exact ⟨r, v ++ w, rfl, .inr ⟨a, v, w, rfl, hv, hw⟩⟩

/-- A run of a sequence to a value runs through both parts. -/
theorem runs_bind_ok_iff {m : Program S α} {f : α → Program S β}
    {t : List (Exchange S)} {b : β} :
    (m.bind f).Runs t (.ok b) ↔
      ∃ a u v, t = u ++ v ∧ m.Runs u (.ok a) ∧ (f a).Runs v (.ok b) := by
  simp [runs_bind_iff]

/-- A program of whose value something is made runs as the program does. -/
theorem runs_bind_done_iff {m : Program S α} {f : α → β} {t : List (Exchange S)}
    {e : Except Payload β} :
    (m.bind fun a => done (f a)).Runs t e ↔ ∃ e', m.Runs t e' ∧ e = e'.map f := by
  rw [runs_bind_iff]
  simp only [runs_done_iff]
  constructor
  · rintro (⟨p, rfl, hp⟩ | ⟨a, u, v, rfl, hu, rfl, rfl⟩)
    · exact ⟨.error p, hp, rfl⟩
    · exact ⟨.ok a, by rwa [List.append_nil], rfl⟩
  · rintro ⟨p | a, hrun, rfl⟩
    · exact .inl ⟨p, rfl, hrun⟩
    · exact .inr ⟨a, t, [], by rw [List.append_nil], hrun, rfl, rfl⟩

/-- **A run of a recovered program** is a run of the program, and never a
panic. -/
theorem runs_recover_iff {m : Program S α} {t : List (Exchange S)}
    {e : Except Payload (Except Payload α)} :
    m.recover.Runs t e ↔ ∃ e', e = .ok e' ∧ m.Runs t e' := by
  induction m generalizing t with
  | done a =>
    simp only [recover_done, runs_done_iff]
    constructor
    · rintro ⟨rfl, rfl⟩
      exact ⟨_, rfl, rfl, rfl⟩
    · rintro ⟨_, rfl, rfl, rfl⟩
      exact ⟨rfl, rfl⟩
  | panic p =>
    simp only [recover_panic, runs_done_iff, runs_panic_iff]
    constructor
    · rintro ⟨rfl, rfl⟩
      exact ⟨_, rfl, rfl, rfl⟩
    · rintro ⟨_, rfl, rfl, rfl⟩
      exact ⟨rfl, rfl⟩
  | call c next ih =>
    simp only [recover, runs_call_iff, ih]
    constructor
    · rintro ⟨r, u, rfl, e', rfl, h⟩
      exact ⟨e', rfl, r, u, rfl, h⟩
    · rintro ⟨e', rfl, r, u, rfl, h⟩
      exact ⟨r, u, rfl, e', rfl, h⟩

/-- A recovered program and what follows it run through both parts. -/
theorem runs_recover_bind_iff {m : Program S α} {f : Except Payload α → Program S β}
    {t : List (Exchange S)} {e : Except Payload β} :
    (m.recover.bind f).Runs t e ↔ ∃ e' u v, t = u ++ v ∧ m.Runs u e' ∧ (f e').Runs v e := by
  rw [runs_bind_iff]
  simp only [runs_recover_iff]
  constructor
  · rintro (⟨p, -, e', he', -⟩ | ⟨a, u, v, rfl, ⟨e', he', hu⟩, hv⟩)
    · exact absurd he' (by simp)
    · cases he'
      exact ⟨a, u, v, rfl, hu, hv⟩
  · rintro ⟨e', u, v, rfl, hu, hv⟩
    exact .inr ⟨e', u, v, rfl, ⟨e', rfl, hu⟩, hv⟩

/-! ## Programs told apart by their exchanges -/

/-- **A program makes no exchanges but those of a sort.** -/
def Only (P : Exchange S → Prop) : Program S α → Prop
  | done _ => True
  | panic _ => True
  | call c next => ∀ r, P ⟨c, r⟩ ∧ (next r).Only P

variable {P : Exchange S → Prop}

/-- The exchanges of a run are of the sort. -/
theorem Only.of_runs {m : Program S α} (h : m.Only P) {t : List (Exchange S)}
    {e : Except Payload α} (hrun : m.Runs t e) : ∀ x ∈ t, P x := by
  induction hrun with
  | done a => exact fun x hx => absurd hx List.not_mem_nil
  | panic p => exact fun x hx => absurd hx List.not_mem_nil
  | @call c next r t e hrun ih =>
    intro x hx
    rcases List.mem_cons.mp hx with rfl | hx
    · exact (h r).1
    · exact ih (h r).2 x hx

theorem only_done (a : α) : (done a : Program S α).Only P := trivial

theorem only_panic (p : Payload) : (panic p : Program S α).Only P := trivial

theorem only_call {c : S.Call} {next : S.Reply c → Program S α}
    (hc : ∀ r, P ⟨c, r⟩) (hn : ∀ r, (next r).Only P) : (call c next).Only P :=
  fun r => ⟨hc r, hn r⟩

theorem only_bind {m : Program S α} {f : α → Program S β} (hm : m.Only P)
    (hf : ∀ a, (f a).Only P) : (m.bind f).Only P := by
  induction m with
  | done a => exact hf a
  | panic p => exact only_panic p
  | call c next ih => exact only_call (fun r => (hm r).1) fun r => ih r (hm r).2

theorem only_recover {m : Program S α} (hm : m.Only P) : m.recover.Only P := by
  induction m with
  | done a => exact only_done _
  | panic p => exact only_done _
  | call c next ih => exact only_call (fun r => (hm r).1) fun r => ih r (hm r).2

/-- Replacing the calls of a program by programs of a sort gives one. -/
theorem only_interpret {f : (c : T.Call) → Program S (T.Reply c)}
    (hf : ∀ c, (f c).Only P) (m : Program T α) : (m.interpret f).Only P := by
  induction m with
  | done a => exact only_done a
  | panic p => exact only_panic p
  | call c next ih => exact only_bind (hf c) ih

theorem Only.mono {Q : Exchange S → Prop} {m : Program S α} (h : m.Only P)
    (hPQ : ∀ x, P x → Q x) : m.Only Q := by
  induction m with
  | done a => exact only_done a
  | panic p => exact only_panic p
  | call c next ih => exact only_call (fun r => hPQ _ (h r).1) fun r => ih r (h r).2

end Program

end Switchboard
