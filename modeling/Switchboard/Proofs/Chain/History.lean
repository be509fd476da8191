import Switchboard.Dispatch.Chain
import Switchboard.Proofs.Program.Runs

/-!
# Histories of chains

What the stages of a chain do to each other – who is entered, who proceeds
and what it is told, who short-circuits, who returns – leaves no mark in
the calls that the chain makes. A **history** writes it down. Stages are
named by their places in the chain, from `0` on, and the terminal has the
place after the last stage.

`runStagesNoted` runs a chain as `runStages` does and keeps its history.
Forgetting the history gives `runStages` back (`runStagesNoted_forget`),
reply by reply, so every run of a chain has a history and a history
changes nothing.

A history also says where in a run the terminal was: if it was entered,
the run is a run of the terminal with exchanges of the stages before and
after it, and otherwise all exchanges are those of the stages
(`runStagesNoted_split`).
-/

namespace Switchboard

variable {β σ ρ α : Type}

/-- What happens in a chain, by the places of its stages. -/
inductive ChainMove (ρ : Type) where
  | enter (i : Nat)
  | shortCircuit (i : Nat) (r : ρ)
  | proceed (i : Nat)
  /-- A stage that has proceeded goes on, with this reply. -/
  | reply (i : Nat) (r : Except DispatchError ρ)
  | leave (i : Nat) (r : Except DispatchError ρ)

namespace ChainMove

/-- The place of the stage that a move is about. -/
def place : ChainMove ρ → Nat
  | enter i => i
  | shortCircuit i _ => i
  | proceed i => i
  | reply i _ => i
  | leave i _ => i

/-- Whether a stage makes the move of its own accord. -/
def isAct : ChainMove ρ → Bool
  | shortCircuit _ _ => true
  | proceed _ => true
  | leave _ _ => true
  | _ => false

/-- Whether the stage is in control after the move. -/
def givesControl : ChainMove ρ → Bool
  | enter _ => true
  | shortCircuit _ _ => true
  | reply _ _ => true
  | _ => false

end ChainMove

/-- What has happened in a chain, the earliest first. -/
abbrev ChainHistory (ρ : Type) := List (ChainMove ρ)

namespace ChainHistory

/-- The places that were entered, in order. -/
def entered (h : ChainHistory ρ) : List Nat :=
  h.filterMap fun
    | .enter i => some i
    | _ => none

/-- The results that the stage at a place has put in for the rest of the
chain, in order. -/
def substitutes (h : ChainHistory ρ) (i : Nat) : List ρ :=
  h.filterMap fun
    | .shortCircuit j r => if j = i then some r else none
    | _ => none

@[simp] theorem entered_nil : entered ([] : ChainHistory ρ) = [] := rfl

@[simp] theorem entered_append (h h' : ChainHistory ρ) :
    entered (h ++ h') = entered h ++ entered h' :=
  List.filterMap_append

@[simp] theorem entered_cons_enter (i : Nat) (h : ChainHistory ρ) :
    entered (.enter i :: h) = i :: entered h := rfl

@[simp] theorem entered_cons_shortCircuit (i : Nat) (r : ρ) (h : ChainHistory ρ) :
    entered (.shortCircuit i r :: h) = entered h := rfl

@[simp] theorem entered_cons_proceed (i : Nat) (h : ChainHistory ρ) :
    entered (.proceed i :: h) = entered h := rfl

@[simp] theorem entered_cons_reply (i : Nat) (r : Except DispatchError ρ) (h : ChainHistory ρ) :
    entered (.reply i r :: h) = entered h := rfl

@[simp] theorem entered_cons_leave (i : Nat) (r : Except DispatchError ρ) (h : ChainHistory ρ) :
    entered (.leave i r :: h) = entered h := rfl

@[simp] theorem substitutes_append (h h' : ChainHistory ρ) (i : Nat) :
    substitutes (h ++ h') i = substitutes h i ++ substitutes h' i :=
  List.filterMap_append

/-- A place was entered if the history says so. -/
theorem mem_entered_iff {h : ChainHistory ρ} {i : Nat} : i ∈ h.entered ↔ .enter i ∈ h := by
  unfold entered
  rw [List.mem_filterMap]
  constructor
  · rintro ⟨m, hm, hi⟩
    cases m <;> simp at hi
    exact hi ▸ hm
  · intro hi
    exact ⟨_, hi, rfl⟩

/-- The results a stage has put in are those of its short circuits. -/
theorem mem_substitutes_iff {h : ChainHistory ρ} {i : Nat} {r : ρ} :
    r ∈ h.substitutes i ↔ .shortCircuit i r ∈ h := by
  unfold substitutes
  rw [List.mem_filterMap]
  constructor
  · rintro ⟨m, hm, hi⟩
    cases m <;> simp at hi
    obtain ⟨rfl, rfl⟩ := hi
    exact hm
  · intro hr
    exact ⟨_, hr, if_pos rfl⟩

end ChainHistory

/-! ## Chains that keep their history -/

variable {S : Signature} (lift : (c : UserCall β σ) → Program S c.Reply)

namespace Program

/-- Runs the interceptor at a place as `drive` does, and goes on with the
history of its chain. -/
def driveNoted (owner : Id) (i : Nat)
    (rest : Frame ρ → ChainHistory ρ →
      Program S (Frame ρ × ChainHistory ρ × Except DispatchError ρ)) :
    Program (chainCalls β σ ρ) α → Frame ρ → Bool → ChainHistory ρ →
      Program S (Frame ρ × Bool × ChainHistory ρ × α)
  | done a, f, proceeded, h => done (f, proceeded, h, a)
  | panic p, _, _, _ => panic p
  | call (.user c) next, f, proceeded, h =>
    (lift c).bind fun r => driveNoted owner i rest (next r) f proceeded h
  | call .proceed next, f, true, h =>
    let reply : Except DispatchError ρ := .error (.doubleProceed owner)
    driveNoted owner i rest (next reply) f true (h ++ [.proceed i, .reply i reply])
  | call .proceed next, f, false, h =>
    match f.substitute with
    | some r =>
      driveNoted owner i rest (next (.ok r)) f true (h ++ [.proceed i, .reply i (.ok r)])
    | none =>
      (rest f (h ++ [.proceed i])).bind fun (f, h, r) =>
        driveNoted owner i rest (next r) f true (h ++ [.reply i r])
  | call (.shortCircuit r) next, f, proceeded, h =>
    driveNoted owner i rest (next ()) (f.shortCircuit r) proceeded (h ++ [.shortCircuit i r])
  | call .state next, f, proceeded, h =>
    driveNoted owner i rest (next ⟨owner, f.stopped, proceeded⟩) f proceeded h

end Program

/-- **Runs a chain and keeps its history**, from the stage at a place on. -/
def runStagesNoted (terminal : Frame ρ → Program S (Frame ρ × Except DispatchError ρ)) :
    Nat → List (Stage β σ ρ) → Frame ρ → ChainHistory ρ →
      Program S (Frame ρ × ChainHistory ρ × Except DispatchError ρ)
  | i, [], f, h =>
    (terminal f).bind fun (f, r) => .done (f, h ++ [.enter i, .leave i r], r)
  | i, s :: rest, f, h =>
    (s.run.driveNoted lift s.owner i (runStagesNoted terminal (i + 1) rest) f false
      (h ++ [.enter i])).bind fun (f, proceeded, h, r) =>
        .done (f.leave proceeded, h ++ [.leave i r], r)

/-- **Runs a chain that stands alone and keeps its history.** -/
def runChainNoted (terminal : Program S (Except DispatchError ρ)) (stages : List (Stage β σ ρ)) :
    Program S (ChainHistory ρ × Except DispatchError (ρ × Bool)) :=
  (runStagesNoted lift (plainTerminal terminal) 0 stages .start []).bind fun (f, h, r) =>
    .done (h, r.map fun r => (r, f.stopped))

/-! ## Forgetting the history -/

/-- An interceptor is driven alike if the rest of its chain is run alike. -/
theorem driveNoted_forget {owner : Id} {i : Nat}
    {rest : Frame ρ → Program S (Frame ρ × Except DispatchError ρ)}
    {noted : Frame ρ → ChainHistory ρ →
      Program S (Frame ρ × ChainHistory ρ × Except DispatchError ρ)}
    (hrest : ∀ f h, (noted f h).bind (fun x => .done (x.1, x.2.2)) = rest f)
    (p : Program (chainCalls β σ ρ) α) (f : Frame ρ) (proceeded : Bool) (h : ChainHistory ρ) :
    (p.driveNoted lift owner i noted f proceeded h).bind
        (fun x => .done (x.1, x.2.1, x.2.2.2))
      = p.drive lift owner rest f proceeded := by
  induction p generalizing f proceeded h with
  | done a => rfl
  | panic p => rfl
  | call c next ih =>
    cases c with
    | user c =>
      show ((lift c).bind _).bind _ = (lift c).bind _
      rw [Program.bind_assoc]
      exact congrArg _ (funext fun r => ih r f proceeded h)
    | proceed =>
      cases proceeded with
      | true => exact ih _ f true _
      | false =>
        unfold Program.driveNoted Program.drive
        cases f.substitute with
        | some r => exact ih _ f true _
        | none =>
          show ((noted f _).bind _).bind _ = (rest f).bind _
          rw [← hrest f (h ++ [.proceed i]), Program.bind_assoc, Program.bind_assoc]
          exact congrArg _ (funext fun x => ih x.2.2 x.1 true _)
    | shortCircuit r => exact ih () (f.shortCircuit r) proceeded _
    | state => exact ih _ f proceeded h

/-- **Keeping the history changes nothing.** -/
theorem runStagesNoted_forget
    (terminal : Frame ρ → Program S (Frame ρ × Except DispatchError ρ))
    (stages : List (Stage β σ ρ)) (i : Nat) (f : Frame ρ) (h : ChainHistory ρ) :
    (runStagesNoted lift terminal i stages f h).bind (fun x => .done (x.1, x.2.2))
      = runStages lift terminal stages f := by
  induction stages generalizing i f h with
  | nil =>
    show ((terminal f).bind _).bind _ = terminal f
    rw [Program.bind_assoc]
    exact Program.bind_done _
  | cons s stages ih =>
    unfold runStagesNoted runStages
    rw [← driveNoted_forget lift (fun f h => ih (i + 1) f h) s.run f false (h ++ [.enter i]),
      Program.bind_assoc, Program.bind_assoc]
    rfl

/-- Keeping the history of a chain that stands alone changes nothing. -/
theorem runChainNoted_forget (terminal : Program S (Except DispatchError ρ))
    (stages : List (Stage β σ ρ)) :
    (runChainNoted lift terminal stages).bind (fun x => .done x.2)
      = runChain lift terminal stages := by
  unfold runChainNoted runChain
  rw [← runStagesNoted_forget lift (plainTerminal terminal) stages 0 .start [],
    Program.bind_assoc, Program.bind_assoc]
  rfl

/-! ## What a chain does -/

section Only

variable {lift} {P : Exchange S → Prop} (hlift : ∀ c, (lift c).Only P)

include hlift

/-- An interceptor does what its calls and the rest of its chain do. -/
theorem only_drive {owner : Id} {rest : Frame ρ → Program S (Frame ρ × Except DispatchError ρ)}
    (hrest : ∀ f, (rest f).Only P) (p : Program (chainCalls β σ ρ) α) (f : Frame ρ)
    (proceeded : Bool) : (p.drive lift owner rest f proceeded).Only P := by
  induction p generalizing f proceeded with
  | done a => exact Program.only_done _
  | panic p => exact Program.only_panic p
  | call c next ih =>
    cases c with
    | user c => exact Program.only_bind (hlift c) fun r => ih r f proceeded
    | proceed =>
      cases proceeded with
      | true => exact ih _ f true
      | false =>
        unfold Program.drive
        cases f.substitute with
        | some r => exact ih _ f true
        | none => exact Program.only_bind (hrest f) fun x => ih x.2 x.1 true
    | shortCircuit r => exact ih () (f.shortCircuit r) proceeded
    | state => exact ih _ f proceeded

/-- **A chain does what its stages and its terminal do.** -/
theorem only_runStages {terminal : Frame ρ → Program S (Frame ρ × Except DispatchError ρ)}
    (hterminal : ∀ f, (terminal f).Only P) (stages : List (Stage β σ ρ)) (f : Frame ρ) :
    (runStages lift terminal stages f).Only P := by
  induction stages generalizing f with
  | nil => exact hterminal f
  | cons s stages ih =>
    exact Program.only_bind (only_drive hlift ih s.run f false) fun _ => Program.only_done _

end Only

/-! ## Where the terminal runs -/

/-- **The terminal in a part of a run.** Either the place `n` is not
entered and every exchange is one of the stages, or the exchanges are
those of the terminal with some of the stages before and after. -/
def TerminalAt (P : Exchange S → Prop) (terminal : Program S (Except DispatchError ρ)) (n : Nat)
    (new : ChainHistory ρ) (t : List (Exchange S)) : Prop :=
  (.enter n ∉ new ∧ ∀ x ∈ t, P x) ∨
    ∃ u v w r, t = u ++ v ++ w ∧ terminal.Runs v (.ok r) ∧ (∀ x ∈ u, P x) ∧ (∀ x ∈ w, P x) ∧
      .enter n ∈ new ∧ .leave n r ∈ new

namespace TerminalAt

variable {P : Exchange S → Prop} {terminal : Program S (Except DispatchError ρ)} {n : Nat}
  {new ms : ChainHistory ρ} {t u : List (Exchange S)}

/-- Exchanges of the stages can come before and after. -/
theorem extend (ht : TerminalAt P terminal n new t) (hms : .enter n ∉ ms)
    (hu : ∀ x ∈ u, P x) : TerminalAt P terminal n (ms ++ new) (u ++ t) := by
  rcases ht with ⟨hnew, ht⟩ | ⟨v, w, z, r, rfl, hw, hv, hz, hent, hleave⟩
  · refine .inl ⟨?_, ?_⟩
    · simpa using ⟨hms, hnew⟩
    · simpa using fun x hx => hx.elim (hu x) (ht x)
  · refine .inr ⟨u ++ v, w, z, r, by simp, hw, ?_, hz, List.mem_append_right _ hent,
      List.mem_append_right _ hleave⟩
    simpa using fun x hx => hx.elim (hu x) (hv x)

theorem extend_right (ht : TerminalAt P terminal n new t) (hms : .enter n ∉ ms)
    (hu : ∀ x ∈ u, P x) : TerminalAt P terminal n (new ++ ms) (t ++ u) := by
  rcases ht with ⟨hnew, ht⟩ | ⟨v, w, z, r, rfl, hw, hv, hz, hent, hleave⟩
  · refine .inl ⟨?_, ?_⟩
    · simpa using ⟨hnew, hms⟩
    · simpa using fun x hx => hx.elim (ht x) (hu x)
  · refine .inr ⟨v, w, z ++ u, r, by simp, hw, hv, ?_, List.mem_append_left _ hent,
      List.mem_append_left _ hleave⟩
    simpa using fun x hx => hx.elim (hz x) (hu x)

end TerminalAt

section Split

variable {lift} {P : Exchange S → Prop} (hlift : ∀ c, (lift c).Only P)

include hlift

/-- An interceptor that has proceeded makes exchanges of its own only. -/
theorem driveNoted_split_of_proceeded {owner : Id} {i n : Nat}
    {rest : Frame ρ → ChainHistory ρ →
      Program S (Frame ρ × ChainHistory ρ × Except DispatchError ρ)}
    {p : Program (chainCalls β σ ρ) α} {f : Frame ρ} {h : ChainHistory ρ}
    {t : List (Exchange S)} {f' : Frame ρ} {proceeded' : Bool} {h' : ChainHistory ρ} {a : α}
    (hrun : (p.driveNoted lift owner i rest f true h).Runs t (.ok (f', proceeded', h', a))) :
    ∃ new, h' = h ++ new ∧ .enter n ∉ new ∧ ∀ x ∈ t, P x := by
  induction p generalizing f h t with
  | done a =>
    obtain ⟨rfl, hd⟩ := Program.runs_done_iff.mp hrun
    cases hd
    exact ⟨[], by simp⟩
  | panic p =>
    obtain ⟨-, hd⟩ := Program.runs_panic_iff.mp hrun
    cases hd
  | call c next ih =>
    cases c with
    | user c =>
      obtain ⟨r, u, v, rfl, hu, hv⟩ := Program.runs_bind_ok_iff.mp hrun
      obtain ⟨new, hnew, hent, hP⟩ := ih r hv
      refine ⟨new, hnew, hent, ?_⟩
      simpa using fun x hx => hx.elim ((hlift c).of_runs hu x) (hP x)
    | proceed =>
      obtain ⟨new, rfl, hent, hP⟩ := ih _ hrun
      exact ⟨_, List.append_assoc _ _ _, by simpa using hent, hP⟩
    | shortCircuit r =>
      obtain ⟨new, rfl, hent, hP⟩ := ih () hrun
      exact ⟨_, List.append_assoc _ _ _, by simpa using hent, hP⟩
    | state => exact ih _ hrun

/-- Driving an interceptor leads through the terminal at most once. -/
theorem driveNoted_split {owner : Id} {i n : Nat}
    {terminal : Program S (Except DispatchError ρ)}
    {rest : Frame ρ → ChainHistory ρ →
      Program S (Frame ρ × ChainHistory ρ × Except DispatchError ρ)}
    (hrest : ∀ f h t f' h' r, (rest f h).Runs t (.ok (f', h', r)) →
      ∃ new, h' = h ++ new ∧ TerminalAt P terminal n new t)
    {p : Program (chainCalls β σ ρ) α} {f : Frame ρ} {h : ChainHistory ρ}
    {t : List (Exchange S)} {f' : Frame ρ} {proceeded' : Bool} {h' : ChainHistory ρ} {a : α}
    (hrun : (p.driveNoted lift owner i rest f false h).Runs t (.ok (f', proceeded', h', a))) :
    ∃ new, h' = h ++ new ∧ TerminalAt P terminal n new t := by
  induction p generalizing f h t with
  | done a =>
    obtain ⟨rfl, hd⟩ := Program.runs_done_iff.mp hrun
    cases hd
    exact ⟨[], by simp, .inl (by simp)⟩
  | panic p =>
    obtain ⟨-, hd⟩ := Program.runs_panic_iff.mp hrun
    cases hd
  | call c next ih =>
    cases c with
    | user c =>
      obtain ⟨r, u, v, rfl, hu, hv⟩ := Program.runs_bind_ok_iff.mp hrun
      obtain ⟨new, hnew, ht⟩ := ih r hv
      refine ⟨new, hnew, ?_⟩
      exact ht.extend List.not_mem_nil ((hlift c).of_runs hu)
    | proceed =>
      unfold Program.driveNoted at hrun
      cases hf : f.substitute with
      | some r =>
        rw [hf] at hrun
        obtain ⟨new, rfl, hent, hP⟩ := driveNoted_split_of_proceeded hlift hrun
        exact ⟨_, List.append_assoc _ _ _, .inl ⟨by simpa using hent, hP⟩⟩
      | none =>
        rw [hf] at hrun
        obtain ⟨x, u, v, rfl, hu, hv⟩ := Program.runs_bind_ok_iff.mp hrun
        obtain ⟨new, hnew, ht⟩ := hrest _ _ _ _ _ _ hu
        -- from here on the stage cannot lead there again
        obtain ⟨own, rfl, hent, hP⟩ := driveNoted_split_of_proceeded hlift hv
        refine ⟨[.proceed i] ++ (new ++ ([.reply i x.2.2] ++ own)), by simp [hnew], ?_⟩
        exact (ht.extend_right (by simpa using hent) hP).extend (u := []) (by simp) (by simp)
    | shortCircuit r =>
      obtain ⟨new, rfl, ht⟩ := ih () hrun
      exact ⟨_, List.append_assoc _ _ _, ht.extend (u := []) (by simp) (by simp)⟩
    | state => exact ih _ hrun

/-- **A run of a chain leads through its terminal at most once**, and what
else it does are exchanges of its stages. -/
theorem runStagesNoted_split (terminal : Program S (Except DispatchError ρ))
    (stages : List (Stage β σ ρ)) {i : Nat} {f : Frame ρ} {h : ChainHistory ρ}
    {t : List (Exchange S)} {f' : Frame ρ} {h' : ChainHistory ρ} {r : Except DispatchError ρ}
    (hrun : (runStagesNoted lift (plainTerminal terminal) i stages f h).Runs t
      (.ok (f', h', r))) :
    ∃ new, h' = h ++ new ∧ TerminalAt P terminal (i + stages.length) new t := by
  induction stages generalizing i f h t f' h' r with
  | nil =>
    obtain ⟨x, u, v, rfl, hu, hv⟩ := Program.runs_bind_ok_iff.mp hrun
    obtain ⟨y, u, w, rfl, hy, hw⟩ := Program.runs_bind_ok_iff.mp hu
    obtain ⟨rfl, hd⟩ := Program.runs_done_iff.mp hw
    cases hd
    obtain ⟨rfl, hd⟩ := Program.runs_done_iff.mp hv
    cases hd
    exact ⟨_, rfl, .inr ⟨[], u, [], r, by simp, hy, by simp, by simp, by simp, by simp⟩⟩
  | cons s stages ih =>
    obtain ⟨⟨f₁, proceeded, h₁, r₁⟩, u, v, rfl, hu, hv⟩ := Program.runs_bind_ok_iff.mp hrun
    obtain ⟨rfl, hd⟩ := Program.runs_done_iff.mp hv
    cases hd
    have hplace : i + 1 + stages.length = i + (s :: stages).length := by
      rw [List.length_cons]
      omega
    obtain ⟨new, rfl, ht⟩ :=
      driveNoted_split hlift (fun f h t f' h' r hr => hplace ▸ ih hr) hu
    have hent : ChainMove.enter (i + (s :: stages).length) ∉ [(.enter i : ChainMove ρ)] := by
      simp
    have hleave : .enter (i + (s :: stages).length) ∉ [ChainMove.leave i r] := by simp
    refine ⟨[.enter i] ++ (new ++ [.leave i r]), by simp, ?_⟩
    have hnil : ∀ x ∈ ([] : List (Exchange S)), P x := by simp
    exact (ht.extend_right hleave hnil).extend hent hnil

/-- A run of a chain that stands alone leads through its terminal at most
once. -/
theorem runChainNoted_split {terminal : Program S (Except DispatchError ρ)}
    {stages : List (Stage β σ ρ)} {t : List (Exchange S)} {h : ChainHistory ρ}
    {out : Except DispatchError (ρ × Bool)}
    (hrun : (runChainNoted lift terminal stages).Runs t (.ok (h, out))) :
    TerminalAt P terminal stages.length h t := by
  obtain ⟨x, u, v, rfl, hu, hv⟩ := Program.runs_bind_ok_iff.mp hrun
  obtain ⟨rfl, hd⟩ := Program.runs_done_iff.mp hv
  cases hd
  obtain ⟨new, hnew, hsplit⟩ := runStagesNoted_split hlift _ _ hu
  rw [List.nil_append] at hnew
  rw [Nat.zero_add, ← hnew] at hsplit
  rwa [List.append_nil]

end Split

end Switchboard
