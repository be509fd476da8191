import Switchboard.Program.Call

/-!
# Chains of interceptors

A chain is a list of stages around a terminal. The first stage is entered
first, and each stage decides whether, and when, the rest of the chain is
entered, by proceeding.

All stages of a chain share a `Frame`. A stage that short-circuits puts a
result into the frame and stops the chain; a stage that returns without
ever having proceeded stops it, too. The rules of proceeding are those of
`drive`: the first time, a result that was put into the frame is the
reply, and nothing is entered; if there is none, the rest of the chain
runs and its result is the reply. A second time is an error, and nothing
is entered.

The terminal is given the frame, so a chain can end in another chain of
the same frame. A chain that stands alone (`runChain`) begins with a frame
of its own, and its terminal leaves the frame as it is.
-/

namespace Switchboard

variable {β σ ρ α : Type}

/-- What all stages of a chain share. -/
structure Frame (ρ : Type) where
  /-- The result that stands in for the rest of the chain. -/
  substitute : Option ρ
  /-- Whether some stage has stopped the chain. -/
  stopped : Bool

namespace Frame

/-- The frame of a chain that has not been entered. -/
def start : Frame ρ := ⟨none, false⟩

/-- The frame after a stage has short-circuited. -/
def shortCircuit (_ : Frame ρ) (r : ρ) : Frame ρ := ⟨some r, true⟩

/-- The frame after a stage has returned. -/
def leave (f : Frame ρ) (proceeded : Bool) : Frame ρ :=
  { f with stopped := f.stopped || !proceeded }

end Frame

/-- A stage of a chain. -/
structure Stage (β σ ρ : Type) where
  owner : Id
  run : Program (chainCalls β σ ρ) (Except DispatchError ρ)

namespace Program

/-- **Runs an interceptor** around the rest of its chain, which is `rest`.
The result says, besides the frame, whether the interceptor proceeded. -/
def drive {S : Signature} (lift : (c : UserCall β σ) → Program S c.Reply) (owner : Id)
    (rest : Frame ρ → Program S (Frame ρ × Except DispatchError ρ)) :
    Program (chainCalls β σ ρ) α → Frame ρ → Bool → Program S (Frame ρ × Bool × α)
  | done a, f, proceeded => done (f, proceeded, a)
  | panic p, _, _ => panic p
  | call (.user c) next, f, proceeded =>
    (lift c).bind fun r => drive lift owner rest (next r) f proceeded
  | call .proceed next, f, true =>
    drive lift owner rest (next (.error (.doubleProceed owner))) f true
  | call .proceed next, f, false =>
    match f.substitute with
    | some r => drive lift owner rest (next (.ok r)) f true
    | none => (rest f).bind fun (f, r) => drive lift owner rest (next r) f true
  | call (.shortCircuit r) next, f, proceeded =>
    drive lift owner rest (next ()) (f.shortCircuit r) proceeded
  | call .state next, f, proceeded =>
    drive lift owner rest (next ⟨owner, f.stopped, proceeded⟩) f proceeded

end Program

/-- **Runs a chain** of stages around a terminal, in a frame. -/
def runStages {S : Signature} (lift : (c : UserCall β σ) → Program S c.Reply)
    (terminal : Frame ρ → Program S (Frame ρ × Except DispatchError ρ)) :
    List (Stage β σ ρ) → Frame ρ → Program S (Frame ρ × Except DispatchError ρ)
  | [], f => terminal f
  | s :: rest, f =>
    (s.run.drive lift s.owner (runStages lift terminal rest) f false).bind
      fun (f, proceeded, r) => .done (f.leave proceeded, r)

/-- A terminal that knows nothing of the frame. -/
def plainTerminal {S : Signature} (p : Program S (Except DispatchError ρ)) (f : Frame ρ) :
    Program S (Frame ρ × Except DispatchError ρ) :=
  p.bind fun r => .done (f, r)

/-- **Runs a chain that stands alone.** A result comes with whether some
stage has stopped the chain. -/
def runChain {S : Signature} (lift : (c : UserCall β σ) → Program S c.Reply)
    (terminal : Program S (Except DispatchError ρ)) (stages : List (Stage β σ ρ)) :
    Program S (Except DispatchError (ρ × Bool)) :=
  (runStages lift (plainTerminal terminal) stages .start).bind fun (f, r) =>
    .done (r.map fun r => (r, f.stopped))

/-- **Two lists of stages, one inside the other, are one chain.** -/
theorem runStages_append {S : Signature} (lift : (c : UserCall β σ) → Program S c.Reply)
    (terminal : Frame ρ → Program S (Frame ρ × Except DispatchError ρ))
    (outer inner : List (Stage β σ ρ)) :
    runStages lift terminal (outer ++ inner)
      = runStages lift (runStages lift terminal inner) outer := by
  induction outer with
  | nil => rfl
  | cons s outer ih => funext f; simp [runStages, ih]

end Switchboard
