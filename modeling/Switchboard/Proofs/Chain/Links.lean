import Switchboard.Dispatch.Chain
import Switchboard.Proofs.Program.Notes

/-!
# Chains with a gate

A chain of stages stops whenever a stage is left that has not proceeded. A
chain of **links** is a chain of stages some of which do not stop it that
way. A **gate** is such a link: it asks something first, and proceeds or
leaves with a refusal according to the answer, which is not held against
the chain.

A chain inside another one, entered through a question that the terminal of
the outer chain asks, is one chain of links with a gate between
(`runStages_gate`). The terminal enters the inner chain without looking
whether something was put in for it, as proceeding does; but a terminal is
only entered where nothing was put in (`drive_congr`), so it makes no
difference.

What goes on in a chain of links is noted as it happens
(`runLinksNoting`), so that it is told of runs that end in a panic, too.
The rule that all notes abide by (`LinkNote.rule`) says that places are
entered in order, each after all places before it have proceeded and none
has put in a result; that the place after the gate is entered after the
question was answered with yes; and that a link that looks is told that the
chain has stopped if and only if some link has stopped it, by putting in a
result or by being left without having proceeded. The induction is on the
links, and within one on the program of its interceptor.
-/

namespace Switchboard

variable {β σ ρ α : Type}

/-! ## Links -/

/-- A link of a chain: a stage, and whether leaving it without having
proceeded stops the chain. -/
structure Link (β σ ρ : Type) extends Stage β σ ρ where
  stops : Bool

/-- A stage as a link. -/
def Stage.link (s : Stage β σ ρ) : Link β σ ρ := ⟨s, true⟩

/-- **A link that asks something** and proceeds if the answer is yes. If it
is no, the link refuses, and the chain is not stopped. -/
def Link.gate (owner : Id) (question : Program (userCalls β σ) Bool)
    (refusal : Except DispatchError ρ) : Link β σ ρ where
  owner
  run := question.ofUser.bind fun
    | true => .call .proceed .done
    | false => .done refusal
  stops := false

variable {S : Signature} (lift : (c : UserCall β σ) → Program S c.Reply)

/-- **Runs a chain of links** around a terminal, in a frame. -/
def runLinks (terminal : Frame ρ → Program S (Frame ρ × Except DispatchError ρ)) :
    List (Link β σ ρ) → Frame ρ → Program S (Frame ρ × Except DispatchError ρ)
  | [], f => terminal f
  | l :: rest, f =>
    (l.run.drive lift l.owner (runLinks terminal rest) f false).bind
      fun (f, proceeded, r) => .done (f.leave (proceeded || !l.stops), r)

/-- Leaving a link that has proceeded, or does not stop the chain, leaves
the frame as it is. -/
@[simp] theorem Frame.leave_true (f : Frame ρ) : f.leave true = f := by
  unfold leave
  rw [Bool.not_true, Bool.or_false]

/-- Two lists of links, one inside the other, are one chain. -/
theorem runLinks_append (terminal : Frame ρ → Program S (Frame ρ × Except DispatchError ρ))
    (outer inner : List (Link β σ ρ)) :
    runLinks lift terminal (outer ++ inner)
      = runLinks lift (runLinks lift terminal inner) outer := by
  induction outer with
  | nil => rfl
  | cons l outer ih =>
    funext f
    rw [List.cons_append]
    unfold runLinks
    rw [ih]

/-- A chain of stages is one of links. -/
theorem runLinks_map_link (terminal : Frame ρ → Program S (Frame ρ × Except DispatchError ρ))
    (stages : List (Stage β σ ρ)) :
    runLinks lift terminal (stages.map (·.link)) = runStages lift terminal stages := by
  induction stages with
  | nil => rfl
  | cons s stages ih =>
    funext f
    rw [List.map_cons]
    unfold runLinks runStages
    rw [ih]
    refine congrArg _ (funext fun x => ?_)
    obtain ⟨f, proceeded, r⟩ := x
    show (Program.done (f.leave (proceeded || false), r) : Program S _) = _
    rw [Bool.or_false]

section Gate

variable {lift}

/-- **The rest of a chain is entered only where nothing was put in for it.** -/
theorem drive_congr {owner : Id}
    {rest rest' : Frame ρ → Program S (Frame ρ × Except DispatchError ρ)}
    (hrest : ∀ f, f.substitute = none → rest f = rest' f) (p : Program (chainCalls β σ ρ) α)
    (f : Frame ρ) (proceeded : Bool) :
    p.drive lift owner rest f proceeded = p.drive lift owner rest' f proceeded := by
  induction p generalizing f proceeded with
  | done a => rfl
  | panic p => rfl
  | call c next ih =>
    cases c with
    | user c => exact congrArg _ (funext fun r => ih r f proceeded)
    | proceed =>
      cases proceeded with
      | true => exact ih _ f true
      | false =>
        unfold Program.drive
        cases hf : f.substitute with
        | some r => exact ih _ f true
        | none =>
          show (rest f).bind _ = (rest' f).bind _
          rw [hrest f hf]
          exact congrArg _ (funext fun x => ih x.2 x.1 true)
    | shortCircuit r => exact ih () (f.shortCircuit r) proceeded
    | state => exact ih _ f proceeded

/-- A chain is the same around terminals that are the same where nothing
was put in. -/
theorem runLinks_congr {terminal terminal' : Frame ρ → Program S (Frame ρ × Except DispatchError ρ)}
    (h : ∀ f, f.substitute = none → terminal f = terminal' f) (links : List (Link β σ ρ))
    (f : Frame ρ) (hf : f.substitute = none) :
    runLinks lift terminal links f = runLinks lift terminal' links f := by
  induction links generalizing f with
  | nil => exact h f hf
  | cons l links ih =>
    unfold runLinks
    rw [drive_congr ih]

/-- What an interceptor asks the user for is asked for it. -/
theorem drive_ofUser_bind {γ : Type} {owner : Id}
    {rest : Frame ρ → Program S (Frame ρ × Except DispatchError ρ)} (p : Program (userCalls β σ) γ)
    (k : γ → Program (chainCalls β σ ρ) α) (f : Frame ρ) (proceeded : Bool) :
    (p.ofUser.bind k).drive lift owner rest f proceeded
      = (p.interpret lift).bind fun a => (k a).drive lift owner rest f proceeded := by
  induction p with
  | done a => rfl
  | panic q => rfl
  | call c next ih =>
    show (lift c).bind _ = ((lift c).bind _).bind _
    rw [Program.bind_assoc]
    exact congrArg _ (funext ih)

/-- **A gate** asks its question, and enters the rest or refuses. -/
theorem runLinks_gate {terminal : Frame ρ → Program S (Frame ρ × Except DispatchError ρ)}
    (owner : Id) (question : Program (userCalls β σ) Bool) (refusal : Except DispatchError ρ)
    (links : List (Link β σ ρ)) {f : Frame ρ} (hf : f.substitute = none) :
    runLinks lift terminal (.gate owner question refusal :: links) f
      = (question.interpret lift).bind fun
          | true => runLinks lift terminal links f
          | false => .done (f, refusal) := by
  rw [runLinks]
  unfold Link.gate
  rw [drive_ofUser_bind, Program.bind_assoc]
  refine congrArg _ (funext fun answer => ?_)
  cases answer with
  | true =>
    unfold Program.drive
    rw [hf]
    show ((runLinks lift terminal links f).bind _).bind _ = runLinks lift terminal links f
    rw [Program.bind_assoc]
    refine Eq.trans (congrArg _ (funext fun x => ?_)) (Program.bind_done _)
    show (Program.done (x.1.leave true, x.2) : Program S _) = .done x
    rw [Frame.leave_true]
  | false =>
    show (Program.done (f.leave true, refusal) : Program S _) = .done (f, refusal)
    rw [Frame.leave_true]

/-- **A chain inside another one, behind a question, is one chain** with a
gate between: as programs, so in everything they do, in their results, and
in the frames they leave. -/
theorem runStages_gate {terminal : Frame ρ → Program S (Frame ρ × Except DispatchError ρ)}
    (owner : Id) (question : Program (userCalls β σ) Bool) (refusal : Except DispatchError ρ)
    (outer inner : List (Stage β σ ρ)) :
    runStages lift (fun f => (question.interpret lift).bind fun
        | true => runStages lift terminal inner f
        | false => .done (f, refusal)) outer .start
      = runLinks lift terminal
          (outer.map (·.link) ++ .gate owner question refusal :: inner.map (·.link)) .start := by
  rw [runLinks_append, ← runLinks_map_link]
  refine runLinks_congr (fun f hf => ?_) _ _ rfl
  rw [runLinks_gate owner question refusal _ hf, runLinks_map_link]

end Gate

/-! ## Notes -/

/-- What happens in a chain, by the places of its links. -/
inductive LinkNote where
  | enter (i : Nat)
  | shortCircuit (i : Nat)
  | proceed (i : Nat)
  /-- A link looks at the chain, and is told this. -/
  | look (i : Nat) (seen : ChainState)
  /-- A link is left, and has proceeded or not. -/
  | leave (i : Nat) (proceeded : Bool)

namespace Program

/-- Runs the interceptor at a place as `drive` does, and notes what it
does. -/
def driveNoting (owner : Id) (i : Nat)
    (rest : Frame ρ → Program (S.noting LinkNote) (Frame ρ × Except DispatchError ρ)) :
    Program (chainCalls β σ ρ) α → Frame ρ → Bool →
      Program (S.noting LinkNote) (Frame ρ × Bool × α)
  | done a, f, proceeded => done (f, proceeded, a)
  | panic p, _, _ => panic p
  | call (.user c) next, f, proceeded =>
    (lift c).quietly.bind fun r => driveNoting owner i rest (next r) f proceeded
  | call .proceed next, f, true =>
    noting (.proceed i) (driveNoting owner i rest (next (.error (.doubleProceed owner))) f true)
  | call .proceed next, f, false =>
    noting (.proceed i) <|
      match f.substitute with
      | some r => driveNoting owner i rest (next (.ok r)) f true
      | none => (rest f).bind fun (f, r) => driveNoting owner i rest (next r) f true
  | call (.shortCircuit r) next, f, proceeded =>
    noting (.shortCircuit i) (driveNoting owner i rest (next ()) (f.shortCircuit r) proceeded)
  | call .state next, f, proceeded =>
    let seen : ChainState := ⟨owner, f.stopped, proceeded⟩
    noting (.look i seen) (driveNoting owner i rest (next seen) f proceeded)

end Program

/-- **Runs a chain of links and notes what happens**, from the link at a
place on, around a terminal that makes notes itself. -/
def runLinksNoting
    (terminal : Frame ρ → Program (S.noting LinkNote) (Frame ρ × Except DispatchError ρ)) :
    Nat → List (Link β σ ρ) → Frame ρ →
      Program (S.noting LinkNote) (Frame ρ × Except DispatchError ρ)
  | _, [], f => terminal f
  | i, l :: rest, f =>
    .noting (.enter i) <|
      (l.run.driveNoting lift l.owner i (runLinksNoting terminal (i + 1) rest) f false).bind
        fun (f, proceeded, r) =>
          .noting (.leave i proceeded) (.done (f.leave (proceeded || !l.stops), r))

/-- A terminal at a place, which notes that it is entered. -/
def terminalNoting (terminal : Frame ρ → Program S (Frame ρ × Except DispatchError ρ)) (i : Nat)
    (f : Frame ρ) : Program (S.noting LinkNote) (Frame ρ × Except DispatchError ρ) :=
  .noting (.enter i) (terminal f).quietly

theorem runLinksNoting_append
    (terminal : Frame ρ → Program (S.noting LinkNote) (Frame ρ × Except DispatchError ρ))
    (i : Nat) (outer inner : List (Link β σ ρ)) :
    runLinksNoting lift terminal i (outer ++ inner)
      = runLinksNoting lift (runLinksNoting lift terminal (i + outer.length) inner) i outer := by
  induction outer generalizing i with
  | nil => rfl
  | cons l outer ih =>
    funext f
    have hplace : i + (l :: outer).length = i + 1 + outer.length := by
      rw [List.length_cons]
      omega
    rw [List.cons_append, hplace]
    unfold runLinksNoting
    rw [ih]

section Unnoted

variable {lift}

/-- Noting what an interceptor does changes nothing. -/
theorem unnoted_driveNoting {owner : Id} {i : Nat}
    {rest : Frame ρ → Program S (Frame ρ × Except DispatchError ρ)}
    {noted : Frame ρ → Program (S.noting LinkNote) (Frame ρ × Except DispatchError ρ)}
    (hrest : ∀ f, (noted f).unnoted = rest f) (p : Program (chainCalls β σ ρ) α) (f : Frame ρ)
    (proceeded : Bool) :
    (p.driveNoting lift owner i noted f proceeded).unnoted
      = p.drive lift owner rest f proceeded := by
  induction p generalizing f proceeded with
  | done a => rfl
  | panic p => rfl
  | call c next ih =>
    cases c with
    | user c =>
      unfold Program.driveNoting Program.drive
      rw [Program.unnoted_bind, Program.unnoted_quietly]
      exact congrArg _ (funext fun r => ih r f proceeded)
    | proceed =>
      cases proceeded with
      | true => exact ih _ f true
      | false =>
        unfold Program.driveNoting Program.drive
        rw [Program.unnoted_noting]
        cases f.substitute with
        | some r => exact ih _ f true
        | none =>
          show ((noted f).bind _).unnoted = (rest f).bind _
          rw [Program.unnoted_bind, hrest]
          exact congrArg _ (funext fun x => ih x.2 x.1 true)
    | shortCircuit r => exact ih () (f.shortCircuit r) proceeded
    | state => exact ih _ f proceeded

/-- **Noting what happens changes nothing.** -/
theorem unnoted_runLinksNoting
    (terminal : Frame ρ → Program S (Frame ρ × Except DispatchError ρ))
    (links : List (Link β σ ρ)) (i : Nat) (f : Frame ρ) :
    (runLinksNoting lift (terminalNoting terminal (i + links.length)) i links f).unnoted
      = runLinks lift terminal links f := by
  induction links generalizing i f with
  | nil => exact Program.unnoted_quietly _
  | cons l links ih =>
    have hplace : i + (l :: links).length = i + 1 + links.length := by
      rw [List.length_cons]
      omega
    unfold runLinksNoting runLinks
    rw [hplace, Program.unnoted_noting, Program.unnoted_bind, unnoted_driveNoting (ih (i + 1))]
    rfl

end Unnoted

end Switchboard
