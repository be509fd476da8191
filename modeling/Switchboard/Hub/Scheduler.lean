import Switchboard.Hub.Basic

/-!
# The scheduler

Programs run on one thread, one at a time. A program runs until it waits,
ends or panics; then another one has its turn. There is a **main** program
– whatever the caller wants done – and there are **tasks**, the handlers
that dispatches have started. Time is a number of milliseconds that only
moves while nothing can run.

The main program runs first. While it waits, tasks run in rounds: every
task that is ready has its turn, in the order of a queue, and one that
becomes ready meanwhile joins the same round at the end. A program that
yields waits for the end of the round; of several tasks that yielded in a
round the last one goes first in the next. Between two rounds the main
program has its turn, if what it waits for is there. When nothing is
ready, time moves on to the next point at which something is due.

`Scheduler.advance` makes a program take one step. `Scheduler.step` lets
whoever has its turn take one step, or gives the turn to the next one, and
`Scheduler.run` repeats it.
-/

namespace Switchboard

variable {β σ α : Type}

/-- A program that has been set aside while it waits. -/
structure Suspended (β σ α : Type) where
  wait : Wait
  /-- The time at which the wait is over in any case. -/
  deadline : Option Nat
  next : wait.Reply → HubProgram β σ α

/-- What a task has yet to do. -/
inductive TaskState (β σ : Type) where
  | fresh (p : HubProgram β σ EventResult)
  | suspended (s : Suspended β σ EventResult)

/-- A handler that has been started and has not ended. -/
structure Task (β σ : Type) where
  handle : Handle
  state : TaskState β σ

namespace Task

/-- What a task waits for. -/
def wait? (t : Task β σ) : Option Wait :=
  match t.state with
  | .fresh _ => none
  | .suspended s => some s.wait

/-- When a task is due in any case. -/
def deadline? (t : Task β σ) : Option Nat :=
  match t.state with
  | .fresh _ => none
  | .suspended s => s.deadline

end Task

/-- The state of the scheduler. -/
structure Scheduler (β σ : Type) where
  hub : Hub β σ
  /-- The time in milliseconds. -/
  clock : Nat
  /-- The tasks that have not ended, the one last set aside at the end. -/
  tasks : List (Task β σ)
  /-- The tasks that are ready, in the order of their turns. -/
  ready : List Handle
  /-- The tasks that have yielded in this round, in order. -/
  deferred : List Handle
  /-- What the main program waits for. -/
  mainWait : Option Wait
  /-- Whether the main program is to have its turn after the round. -/
  mainReady : Bool

/-- What a step makes of a program. -/
inductive Progress (β σ α : Type) where
  | running (p : HubProgram β σ α)
  | waiting (s : Suspended β σ α)
  | ended (r : Except Payload α)

namespace Scheduler

/-- A scheduler without tasks. -/
def fresh (hub : Hub β σ) : Scheduler β σ := ⟨hub, 0, [], [], [], none, false⟩

/-! ## Waking -/

/-- Makes a task ready, unless it is ready already. -/
def wake (m : Scheduler β σ) (h : Handle) : Scheduler β σ :=
  if m.ready.contains h then m else { m with ready := m.ready ++ [h] }

/-- Whether two waits are for the same session. -/
def waitsFor (s : Id) : Option Wait → Bool
  | some (.session s' _) => s == s'
  | _ => false

/-- Wakes the programs whose waits satisfy a condition. -/
def wakeWhere (m : Scheduler β σ) (p : Option Wait → Bool) : Scheduler β σ :=
  let m := (m.tasks.filter fun t => p t.wait?).foldl (fun m t => m.wake t.handle) m
  if p m.mainWait then { m with mainReady := true } else m

/-- Wakes the owners of the sessions that have stopped waiting. -/
def wakeSettled (m : Scheduler β σ) : Scheduler β σ :=
  let settled := m.hub.sessions.settled
  let m := { m with hub := { m.hub with sessions := { m.hub.sessions with settled := [] } } }
  settled.foldl (fun m s => m.wakeWhere (waitsFor s)) m

/-- A task has ended with a result: the result goes to its handle, and
those who wait for it are woken, as are those who wait for the last task. -/
def complete (m : Scheduler β σ) (h : Handle) (r : EventResult) : Scheduler β σ :=
  let m := { m with
    hub := { m.hub with handles := m.hub.handles.complete h r },
    tasks := m.tasks.filter (·.handle != h) }
  let m := m.wakeWhere fun
    | some (.handle h') => h == h'
    | _ => false
  if m.tasks.isEmpty then
    m.wakeWhere fun
      | some .idle => true
      | _ => false
  else m

/-! ## Waiting -/

/-- The time at which a wait that begins now is over in any case. -/
def deadline (m : Scheduler β σ) : Wait → Option Nat
  | .sleep ms => some (m.clock + ms)
  | .session _ (some t) => some (t.since.getD m.clock + t.milliseconds)
  | _ => none

/-- The reply to a wait, if it is there. -/
def reply? (m : Scheduler β σ) (deadline : Option Nat) :
    (w : Wait) → Option (w.Reply × Scheduler β σ)
  | .yield => none
  | .sleep _ => if deadline.any (· ≤ m.clock) then some ((), m) else none
  | .handle h =>
    match m.hub.handles.result? h with
    | some r => some (r, { m with hub := { m.hub with handles := m.hub.handles.observe h } })
    | none => none
  | .session s t =>
    match m.hub.sessions.status s with
    | .received e => some (.ok e, m)
    | .closed => some (.error (.closed s), m)
    | .waiting =>
      if deadline.any (· ≤ m.clock) then
        some (.error (.timedOut s ((t.map (·.milliseconds)).getD 0)),
          { m with hub := { m.hub with sessions := m.hub.sessions.abandon s } })
      else none
  | .idle => if m.tasks.isEmpty then some ((), m) else none

/-- Looks whether a program that waits can go on. One that has yielded
can, when it has its next turn. -/
def resume (m : Scheduler β σ) (s : Suspended β σ α) : Scheduler β σ × Progress β σ α :=
  match s with
  | ⟨.yield, _, next⟩ => (m, .running (next ()))
  | ⟨w, deadline, next⟩ =>
    match m.reply? deadline w with
    | some (reply, m) => (m, .running (next reply))
    | none => (m, .waiting ⟨w, deadline, next⟩)

/-- Gives up a program that waits. A session it waited for is abandoned. -/
def drop (m : Scheduler β σ) (w : Wait) : Scheduler β σ :=
  match w with
  | .session s _ => { m with hub := { m.hub with sessions := m.hub.sessions.abandon s } }
  | _ => m

/-! ## Running -/

/-- **A program takes one step.** -/
def advance (B : Behaviours β σ) (m : Scheduler β σ) :
    HubProgram β σ α → Scheduler β σ × Progress β σ α
  | .done a => (m, .ended (.ok a))
  | .panic p => (m, .ended (.error p))
  | .call (.user (.request r)) next =>
    let (reply, hub) := m.hub.answer r
    ({ m with hub }.wakeSettled, .running (next reply))
  | .call (.user (.wait w)) next =>
    let deadline := m.deadline w
    match m.reply? deadline w with
    | some (reply, m) => (m, .running (next reply))
    | none => (m, .waiting ⟨w, deadline, next⟩)
  | .call (.user (.dispatch e)) next =>
    (m, .running ((dispatch B m.hub.settings e).recover.bind next))
  | .call (.start e) next =>
    let (reply, hub) := m.hub.start e
    ({ m with hub }, .running (next reply))
  | .call .holdSessions next => (m, .running (next m.hub.sessions.waiters))
  | .call (.keepSessions ws) next =>
    ({ m with hub := m.hub.keepSessions ws }.wakeSettled, .running (next ()))
  | .call (.loseSessions ws) next =>
    ({ m with hub := m.hub.loseSessions ws }.wakeSettled, .running (next ()))
  | .call (.deliver s e) next =>
    ({ m with hub := m.hub.deliver s e }.wakeSettled, .running (next ()))
  | .call (.record c o) next => ({ m with hub := m.hub.record c o }, .running (next ()))
  | .call (.markTruncated c) next => ({ m with hub := m.hub.markTruncated c }, .running (next ()))
  | .call (.spawn job) next =>
    let (h, handles) := m.hub.handles.add none
    let task : Task β σ := ⟨h, .fresh (runJob B m.hub.settings job)⟩
    ({ m with hub := { m.hub with handles }, tasks := m.tasks ++ [task],
              ready := m.ready ++ [h] }, .running (next h))

/-- Whose turn it is. -/
inductive Turn (β σ α : Type) where
  | main (p : HubProgram β σ α)
  | task (h : Handle) (p : HubProgram β σ EventResult) (main : Suspended β σ α)
  /-- Nobody's: the next one is to be found. -/
  | nobody (main : Suspended β σ α)
  /-- The main program has ended. -/
  | ended (r : Except Payload α)
  /-- The main program has been given up. -/
  | stuck

/-- A task is set aside. -/
def setAside (m : Scheduler β σ) (h : Handle) (s : Suspended β σ EventResult) : Scheduler β σ :=
  { m with
    tasks := m.tasks.filter (·.handle != h) ++ [⟨h, .suspended s⟩],
    deferred := match s.wait with
      | .yield => m.deferred ++ [h]
      | _ => m.deferred }

/-- The task at the head of the queue has its turn. -/
def takeTurn (m : Scheduler β σ) (h : Handle) (rest : List Handle) (main : Suspended β σ α) :
    Scheduler β σ × Turn β σ α :=
  let m := { m with ready := rest }
  match m.tasks.find? (·.handle == h) with
  | none => (m, .nobody main)
  | some ⟨_, .fresh p⟩ => (m, .task h p main)
  | some ⟨_, .suspended s⟩ =>
    match m.resume s with
    | (m, .running p) => (m, .task h p main)
    | (m, _) => (m, .nobody main)

/-- The main program is set aside. -/
def setMainAside (m : Scheduler β σ) (limit : Option Nat) (s : Suspended β σ α) :
    Scheduler β σ × Turn β σ α :=
  if limit.any (· ≤ m.clock) then ({ m with mainWait := none }.drop s.wait, .stuck)
  else ({ m with mainWait := some s.wait, mainReady := false }, .nobody s)

/-- The main program has its turn between two rounds. -/
def mainTurn (m : Scheduler β σ) (limit : Option Nat) (main : Suspended β σ α) :
    Scheduler β σ × Turn β σ α :=
  match m.resume main with
  | (m, .running p) => ({ m with mainWait := none }, .main p)
  | (m, _) => m.setMainAside limit main

/-- Wakes the tasks that are due, the one due first at the front. -/
def wakeDue (m : Scheduler β σ) : Scheduler β σ :=
  let due := m.tasks.filterMap fun t =>
    t.deadline?.bind fun d => if d ≤ m.clock then some (d, t.handle) else none
  (due.mergeSort fun a b => a.1 ≤ b.1).foldl (fun m (_, h) => m.wake h) m

/-- Ends a round: tasks that are due and tasks that have yielded are
ready, and so is the main program if it has yielded. -/
def endRound (m : Scheduler β σ) (main : Suspended β σ α) : Scheduler β σ :=
  let m := m.wakeDue
  let m := m.deferred.reverse.foldl (fun m h => m.wake h) { m with deferred := [] }
  match main.wait with
  | .yield => { m with mainReady := true }
  | _ => if main.deadline.any (· ≤ m.clock) then { m with mainReady := true } else m

/-- The next time at which something is due. -/
def nextDue (m : Scheduler β σ) (limit : Option Nat) (main : Suspended β σ α) : Option Nat :=
  (limit.toList ++ main.deadline.toList ++ m.tasks.filterMap (·.deadline?)).min?

/-- Finds who has the next turn. -/
def nextTurn (m : Scheduler β σ) (limit : Option Nat) (main : Suspended β σ α) :
    Scheduler β σ × Turn β σ α :=
  match m.ready with
  | h :: rest => m.takeTurn h rest main
  | [] =>
    let yielded := match main.wait with
      | .yield => true
      | _ => false
    if !m.deferred.isEmpty || yielded then
      let m := m.endRound main
      if m.mainReady then m.mainTurn limit main else (m, .nobody main)
    else if m.mainReady then m.mainTurn limit main
    else match m.nextDue limit main with
      | none => ({ m with mainWait := none }.drop main.wait, .stuck)
      | some t =>
        let m := { m with clock := max m.clock t }.endRound main
        if m.mainReady || limit.any (· ≤ m.clock) then m.mainTurn limit main
        else (m, .nobody main)

/-- **Whoever has its turn takes a step**, or the next one is found. -/
def step (B : Behaviours β σ) (limit : Option Nat) (m : Scheduler β σ) :
    Turn β σ α → Scheduler β σ × Turn β σ α
  | .main p =>
    match m.advance B p with
    | (m, .running p) => (m, .main p)
    | (m, .waiting s) => m.setMainAside limit s
    | (m, .ended r) => (m, .ended r)
  | .task h p main =>
    match m.advance B p with
    | (m, .running p) => (m, .task h p main)
    | (m, .waiting s) => (m.setAside h s, .nobody main)
    | (m, .ended r) => (m.complete h (asFailure r), .nobody main)
  | .nobody main => m.nextTurn limit main
  | .ended r => (m, .ended r)
  | .stuck => (m, .stuck)

/-- Repeats steps, at most `fuel` of them, until the main program has
ended or has been given up. -/
def steps (B : Behaviours β σ) (limit : Option Nat) :
    Nat → Scheduler β σ → Turn β σ α → Scheduler β σ × Turn β σ α
  | 0, m, t => (m, t)
  | fuel + 1, m, t =>
    match t with
    | .ended r => (m, .ended r)
    | .stuck => (m, .stuck)
    | t =>
      let (m, t) := m.step B limit t
      steps B limit fuel m t

/-- More steps than any program of a sensible size takes. -/
def stepLimit : Nat := 100000000

/-- **Runs a main program**, for at most `patience` milliseconds if that
is given. The result is missing if the program was given up. -/
def run (B : Behaviours β σ) (m : Scheduler β σ) (patience : Option Nat)
    (p : HubProgram β σ α) : Option (Except Payload α) × Scheduler β σ :=
  match steps B (patience.map (m.clock + ·)) stepLimit m (.main p) with
  | (m, .ended r) => (some r, m)
  | (m, _) => (none, m)

/-- Runs a main program on a thread of its own, where no task has a turn.
It can yield, but waiting for anything that is not there is without end. -/
def runAlone (B : Behaviours β σ) (fuel : Nat) (m : Scheduler β σ) (p : HubProgram β σ α) :
    Option (Except Payload α) × Scheduler β σ :=
  match fuel with
  | 0 => (none, m)
  | fuel + 1 =>
    match m.advance B p with
    | (m, .running p) => runAlone B fuel m p
    | (m, .ended r) => (some r, m)
    | (m, .waiting ⟨.yield, _, next⟩) => runAlone B fuel m (next ())
    | (m, .waiting s) => (none, m.drop s.wait)

/-! ## What callers do -/

/-- Yields a number of times. -/
def yields : Nat → HubProgram β σ Unit
  | 0 => .done ()
  | n + 1 => .call (.user (.wait .yield)) fun _ => yields n

/-- Dispatches an event. -/
def dispatch (B : Behaviours β σ) (m : Scheduler β σ) (patience : Option Nat) (e : Event) :
    Option (Except Payload (Except DispatchError DispatchResult)) × Scheduler β σ :=
  m.run B patience (Switchboard.dispatch B m.hub.settings e)

/-- **Dispatches an event from a thread that is outside of the scheduler.**
The hub needs to know a scheduler to do so. -/
def dispatchBlocking (B : Behaviours β σ) (m : Scheduler β σ) (known inside : Bool) (e : Event) :
    Option (Except Payload (Except DispatchError DispatchResult)) × Scheduler β σ :=
  if inside then (some (.ok (.error .withinRuntime)), m)
  else if !known then (some (.ok (.error .noRuntime)), m)
  else m.runAlone B stepLimit (Switchboard.dispatch B m.hub.settings e)

/-- What shutting a hub down does: the registry is emptied, the sessions
are closed, and the started handlers are awaited. -/
def shutdown : HubProgram β σ Unit :=
  (HubProgram.request .clearRegistry).bind fun _ =>
    (HubProgram.request .clearSessions).bind fun _ =>
      .call (.user (.wait .idle)) .done

/-- Lets time pass without regard to what is due meanwhile. -/
def elapse (m : Scheduler β σ) (milliseconds : Nat) : Scheduler β σ :=
  { m with clock := m.clock + milliseconds }

/-- Looks whether a wait is over, without waiting. -/
def poll (m : Scheduler β σ) (w : Wait) : Option w.Reply × Scheduler β σ :=
  match m.reply? (m.deadline w) w with
  | some (reply, m) => (some reply, m)
  | none => (none, m)

end Scheduler

end Switchboard
