import Switchboard.Event
import Switchboard.Text.Duration

/-!
# Continuous sessions

A session waits for a later event. Whoever opens it gives a matcher, and
every dispatch that follows offers its event to the sessions that are
still waiting, in the order in which they were opened. A session whose
matcher accepts receives the event and waits no more. Until all of them
were asked, the dispatch has hold of the list of sessions.

A session that is no longer waiting and has received no event is
**closed**: it was cancelled, or all sessions were cleared, or a matcher
panicked while the sessions were being offered an event, which loses all
those that had not received it. A session whose owner has given up is
**abandoned**; it is not counted, and the next dispatch drops it.

`Sessions.status` is what the owner of a session sees. The list `settled`
holds the sessions that have stopped waiting since somebody last looked,
in order, so that their owners can be woken in this order.
-/

namespace Switchboard

variable {β : Type}

/-- A session that waits for an event. -/
structure Waiter (β : Type) where
  id : Id
  /-- Only events with a message are offered to the matcher. -/
  forMessages : Bool
  matcher : β
  /-- The owner has given up. -/
  abandoned : Bool

/-- What the owner of a session sees. -/
inductive SessionStatus where
  | waiting
  | received (e : Event)
  | closed

/-- Why a session ended without an event. -/
inductive SessionError where
  | closed (session : Id)
  | timedOut (session : Id) (milliseconds : Nat)
deriving DecidableEq

namespace SessionError

/-- The message of an error. -/
def message : SessionError → String
  | closed s => "continuous session '" ++ s.text ++ "' closed before an event matched"
  | timedOut s ms =>
    "continuous session '" ++ s.text ++ "' timed out after " ++ Text.durationText ms

end SessionError

/-- All sessions of a hub. -/
structure Sessions (β : Type) where
  /-- The sessions that wait, in the order in which they were opened. -/
  waiters : List (Waiter β)
  /-- The events that sessions have received. -/
  received : List (Id × Event)
  /-- The sessions that have stopped waiting and whose owners are not woken yet. -/
  settled : List Id

namespace Sessions

/-- No sessions. -/
def empty : Sessions β := ⟨[], [], []⟩

/-- Opens a session. -/
def openNew (s : Sessions β) (id : Id) (forMessages : Bool) (matcher : β) : Sessions β :=
  { s with waiters := s.waiters ++ [⟨id, forMessages, matcher, false⟩] }

/-- The number of sessions that wait for somebody. -/
def size (s : Sessions β) : Nat := s.waiters.countP (!·.abandoned)

/-- What the owner of a session sees. -/
def status (s : Sessions β) (id : Id) : SessionStatus :=
  match s.received.find? (·.1 == id) with
  | some (_, e) => .received e
  | none => if s.waiters.any (·.id == id) then .waiting else .closed

/-- Cancels a session, and tells whether it was waiting. -/
def cancel (s : Sessions β) (id : Id) : Bool × Sessions β :=
  if s.waiters.any (·.id == id) then
    (true, { s with waiters := s.waiters.filter (·.id != id), settled := s.settled ++ [id] })
  else (false, s)

/-- Closes all sessions. -/
def clear (s : Sessions β) : Sessions β :=
  { s with waiters := [], settled := s.settled ++ s.waiters.map (·.id) }

/-- The owner of a session gives up. -/
def abandon (s : Sessions β) (id : Id) : Sessions β :=
  { s with waiters := s.waiters.map fun w => if w.id = id then { w with abandoned := true } else w }

/-- A session receives an event, unless its owner has given up. -/
def deliver (s : Sessions β) (id : Id) (e : Event) : Sessions β :=
  if s.waiters.any fun w => w.id == id && !w.abandoned then
    { waiters := s.waiters.filter (·.id != id)
      received := s.received ++ [(id, e)]
      settled := s.settled ++ [id] }
  else s

/-- Drops all sessions but these, and of these the ones that were given up. -/
def keep (s : Sessions β) (ws : List (Waiter β)) : Sessions β :=
  let (stay, go) := s.waiters.partition fun w => !w.abandoned && ws.any (·.id == w.id)
  { s with waiters := stay, settled := s.settled ++ go.map (·.id) }

/-- Drops all sessions, these first. -/
def lose (s : Sessions β) (ws : List (Waiter β)) : Sessions β :=
  { s with waiters := [], settled := s.settled ++ (ws ++ s.waiters).map (·.id) }

/-- The text for diagnosis of so many waiting sessions. -/
def describeCount (size : Nat) : String :=
  "ContinuousSessions \x7b pending: " ++ Number.natText size ++ " \x7d"

/-- The text of the sessions for diagnosis. -/
def describe (s : Sessions β) : String := describeCount s.size

@[simp] theorem size_empty : (empty : Sessions β).size = 0 := rfl

@[simp] theorem size_clear (s : Sessions β) : s.clear.size = 0 := rfl

@[simp] theorem size_openNew (s : Sessions β) (id : Id) (forMessages : Bool) (matcher : β) :
    (s.openNew id forMessages matcher).size = s.size + 1 := by
  simp [openNew, size, List.countP_append]

end Sessions

end Switchboard
