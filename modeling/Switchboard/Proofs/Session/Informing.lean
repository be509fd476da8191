import Switchboard.Proofs.Dispatch.Outcomes
import Switchboard.Proofs.Hub.Interleaving
import Switchboard.Proofs.Hub.Progress
import Switchboard.Proofs.Hub.Sequence
import Switchboard.Proofs.Session.Accounts

/-!
# Whoever waits for a session is told

What has become of a session can be told from what is seen of threads, and so
can what whoever waits for it would be told (`Threads.Run.accounted`). Where
programs have turns, whoever waits for a session that is over does have a turn,
in which it goes on with that (`Scheduler.Informs`): it was woken when the
session ended, and others give their turns back.

Both together account for every session (`sessions_accounted`).
-/

namespace Switchboard

variable {β σ α : Type}

namespace Scheduler

variable {B : Behaviours β σ} {limit : Option Nat} {m : Scheduler β σ} {t : Turn β σ α}
  {H : Handle → Prop} {s : Id} {r : Except SessionError Event}

/-- **Whoever waits for a session is told** what has become of it, with or
without a time limit, and whether it is up or not. -/
structure Informs (B : Behaviours β σ) (limit : Option Nat) (m : Scheduler β σ)
    (t : Turn β σ α) (s : Id) (r : Except SessionError Event) : Prop where
  /-- A task that waits is ready. -/
  ready : ∀ {k timeout deadline next}, k ∈ m.tasks → some k.handle ≠ t.handle? →
    k.state = .suspended ⟨.session s timeout, deadline, next⟩ → k.handle ∈ m.ready
  /-- While the main program waits it has its turn, where tasks halt, and goes on
  with the reply. -/
  task : ∀ {main k timeout deadline next}, t.main? = some main → m.Halting B t.task? →
    k ∈ m.tasks → some k.handle ≠ t.handle? →
    k.state = .suspended ⟨.session s timeout, deadline, next⟩ →
    ∃ n m', m.steps B limit n t = (m', .task k.handle (next r) main)
  /-- The main program goes on with the reply if it is the one that waits. -/
  main : ∀ {timeout deadline next}, t.main? = some ⟨.session s timeout, deadline, next⟩ →
    m.Halting B t.task? → ∃ n m', m.steps B limit n t = (m', .main (next r))

/-- **Nobody who waits for a session that is over is overlooked.** -/
theorem Alert.informs (h : m.Alert H t) (hover : ∀ n, (m.steps B limit n t).1.Over s r) :
    m.Informs B limit t s r where
  ready := fun hk hx hs => h.attentive.ready_of_over hk hx hs (hover 0)
  task := fun hmain hhalt hk hx hs => h.over_goes_on B limit hmain hhalt hk hx hs hover
  main := fun hmain hhalt => h.main_over B limit hmain hhalt hover

end Scheduler

open HubProgram

/-- Code whose sessions accept all events. Some handlers wait for a session, and
the others close the second session and dispatch an event. -/
def Behaviours.meeting : Behaviours (Option Nat) Unit where
  filter _ _ := .done true
  matcher _ _ := .done true
  handler
    | some k, _ => .call (.wait (.session (Id.ofEntropy k) none)) fun _ => .done (.text "hi")
    | none, _ => .call (.request .clearRegistry) fun _ =>
      .call (.request (.cancelSession (Id.ofEntropy 1))) fun _ =>
        .call (.dispatch .bare) fun _ => .done (.text "hi")
  listenerInterceptor _ _ := .call .proceed .done
  processingInterceptor _ _ := .call .proceed .done
  onFailure := none

/-- A listener whose handler is started by a dispatch. -/
def ResolvedListener.meeting (n : Nat) (handler : Option Nat) : ResolvedListener (Option Nat) :=
  ⟨⟨.ofInt n, .any, .normal, .async, [], [], ⟨[], handler⟩⟩, n, [], []⟩

/-- A registry with a listener for each of two sessions, and one more. -/
def Registry.meeting : Registry (Option Nat) :=
  ⟨⟨[.meeting 0 (some 0), .meeting 1 (some 1), .meeting 2 none], [], [], []⟩, 3⟩

/-- Starts the handlers, opens two sessions, and waits for the handlers. -/
def Program.meeting : Program (userCalls (Option Nat) Unit) Unit :=
  .call (.dispatch .bare) fun _ => .call (.request (.openSession false none)) fun _ =>
    .call (.request (.openSession false none)) fun _ => .call (.wait .idle) .done

/-- What becomes of a new scheduler when it runs the program for some steps. -/
def Scheduler.meeting (n : Nat) :
    Scheduler (Option Nat) Unit × Scheduler.Turn (Option Nat) Unit Unit :=
  (Scheduler.fresh (.fresh .meeting .default ())).steps .meeting none n
    (.main (ofUser Program.meeting))

end Switchboard
