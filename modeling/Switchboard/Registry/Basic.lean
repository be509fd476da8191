import Switchboard.Listener

/-!
# The registry

The registry holds the listeners, the processing interceptors and the
listener interceptors that serve all listeners. What it holds at one time
is a `Snapshot`, an immutable value: a dispatch works on the snapshot it
started with, whatever happens to the registry meanwhile.

Every change takes the entries of the current snapshot as a `Draft`,
changes the draft, and commits it as the next snapshot. A commit sorts the
entries by priority and number and resolves the chains of every listener:
the interceptors that wrap it, those serving all listeners before its own
ones at the same priority, split by the point they wrap. A change that
fails leaves the snapshot as it is; only the numbers it has drawn are gone.

Listeners, interceptors, and the interceptors attached to listeners share
one set of identifiers.

The listeners that an event goes to are found by `Snapshot.targets`, which
keeps what it found under the *name* of the key until the next change: two
keys of one name are served alike, whichever came first.
-/

namespace Switchboard

variable {β : Type}

/-- A listener with the interceptors that wrap it, outermost first. -/
structure ResolvedListener (β : Type) where
  listener : Listener β
  seq : Nat
  /-- The interceptors around filters and handler. -/
  before : List (Interceptor β)
  /-- The interceptors around the handler alone. -/
  after : List (Interceptor β)

/-- What the registry holds at one time. -/
structure Snapshot (β : Type) where
  listeners : List (ResolvedListener β)
  processing : List (Interceptor β)
  serving : List (ListenerInterceptor β)
  /-- The listeners found for the keys looked up so far, by their names. -/
  found : List (String × List (ResolvedListener β))

/-- The entries of a snapshot while they are being changed. -/
structure Draft (β : Type) where
  listeners : List (Listener β × Nat)
  processing : List (Interceptor β)
  serving : List (ListenerInterceptor β)

/-- Why a change of the registry failed. -/
inductive RegistryError where
  | duplicateListener (id : Id)
  | duplicateInterceptor (id : Id)
  | notFound (id : Id)
deriving DecidableEq

namespace RegistryError

/-- The identifier an error is about. -/
def id : RegistryError → Id
  | duplicateListener id => id
  | duplicateInterceptor id => id
  | notFound id => id

/-- The message of an error. -/
def message : RegistryError → String
  | duplicateListener id => "duplicate listener id '" ++ id.text ++ "'"
  | duplicateInterceptor id => "duplicate interceptor id '" ++ id.text ++ "'"
  | notFound id => "no listener or interceptor registered under '" ++ id.text ++ "'"

end RegistryError

/-- What was removed from the registry. -/
inductive Removed (β : Type) where
  | listener (l : Listener β)
  | processing (id : Id)
  | serving (id : Id)

/-! ## Order -/

/-- Whether an entry comes before another or with it: by priority, and by
number at the same priority. -/
def orderedBy (p q : Priority × Nat) : Bool :=
  p.1.value < q.1.value || (p.1.value == q.1.value && p.2 ≤ q.2)

/-- Whether a wrapper of a listener comes before another or with it: by
priority, the ones serving all listeners before attached ones, and by
number. -/
def wrapsBefore (a b : Bool × ListenerInterceptor β) : Bool :=
  a.2.priority.value < b.2.priority.value ||
    (a.2.priority.value == b.2.priority.value &&
      ((!a.1 && b.1) || (a.1 == b.1 && a.2.seq ≤ b.2.seq)))

/-- The wrappers of a listener in their order. -/
def wrappers (l : Listener β) (serving : List (ListenerInterceptor β)) :
    List (ListenerInterceptor β) :=
  ((serving.map (false, ·) ++ l.interceptors.map (true, ·)).mergeSort wrapsBefore).map (·.2)

/-- **A listener with its chains.** -/
def resolve (l : Listener β) (seq : Nat) (serving : List (ListenerInterceptor β)) :
    ResolvedListener β :=
  let all := wrappers l serving
  { listener := l, seq,
    before := (all.filter (·.point == .beforeMatch)).map (·.toInterceptor),
    after := (all.filter (·.point == .afterMatch)).map (·.toInterceptor) }

/-! ## Snapshots and drafts -/

namespace Draft

/-- Whether an identifier belongs to an entry of a draft. -/
def contains (d : Draft β) (id : Id) : Bool :=
  d.listeners.any (·.1.owns id) || d.processing.any (·.id == id) || d.serving.any (·.id == id)

/-- **Makes a snapshot of a draft**: sorts the entries and resolves the
chains of the listeners. -/
def commit (d : Draft β) : Snapshot β :=
  let serving := d.serving.mergeSort fun a b => orderedBy (a.priority, a.seq) (b.priority, b.seq)
  { listeners :=
      (d.listeners.mergeSort fun a b => orderedBy (a.1.priority, a.2) (b.1.priority, b.2)).map
        fun (l, seq) => resolve l seq serving,
    processing :=
      d.processing.mergeSort fun a b => orderedBy (a.priority, a.seq) (b.priority, b.seq),
    serving, found := [] }

/-- The first of the identifiers attached to a listener that is taken: by
the listener itself, by an entry of the draft, or by an earlier one. -/
def takenAttached? (d : Draft β) (own : Id) : List Id → List Id → Option Id
  | _, [] => none
  | earlier, id :: rest =>
    if id = own ∨ d.contains id = true ∨ id ∈ earlier then some id
    else takenAttached? d own (id :: earlier) rest

/-- Adds a listener under a number. -/
def addListener (d : Draft β) (l : Listener β) (seq : Nat) : Except RegistryError (Draft β) :=
  if d.contains l.id then .error (.duplicateListener l.id)
  else match d.takenAttached? l.id [] (l.interceptors.map (·.id)) with
    | some id => .error (.duplicateInterceptor id)
    | none => .ok { d with listeners := d.listeners ++ [(l, seq)] }

/-- Adds several listeners, numbered from `seq` on, and tells the next
free number, be it a success or not. -/
def addListeners (d : Draft β) (seq : Nat) :
    List (Listener β) → Except RegistryError (Draft β) × Nat
  | [] => (.ok d, seq)
  | l :: rest =>
    match d.addListener l seq with
    | .error e => (.error e, seq)
    | .ok d => d.addListeners (seq + 1) rest

/-- Removes the entry of an identifier. Attached interceptors are no
entries of their own. -/
def remove (d : Draft β) (id : Id) : Except RegistryError (Draft β × Removed β) :=
  match d.listeners.find? (·.1.id == id) with
  | some (l, _) =>
    .ok ({ d with listeners := d.listeners.eraseP (·.1.id == id) }, .listener l)
  | none =>
    if d.processing.any (·.id == id) then
      .ok ({ d with processing := d.processing.eraseP (·.id == id) }, .processing id)
    else if d.serving.any (·.id == id) then
      .ok ({ d with serving := d.serving.eraseP (·.id == id) }, .serving id)
    else .error (.notFound id)

end Draft

namespace Snapshot

/-- The snapshot without entries. -/
def empty : Snapshot β := ⟨[], [], [], []⟩

/-- The entries of a snapshot. -/
def draft (s : Snapshot β) : Draft β :=
  ⟨s.listeners.map fun r => (r.listener, r.seq), s.processing, s.serving⟩

/-- Whether an identifier belongs to an entry. -/
def contains (s : Snapshot β) (id : Id) : Bool := s.draft.contains id

/-- The listener with an identifier. -/
def listener? (s : Snapshot β) (id : Id) : Option (Listener β) :=
  (s.listeners.find? (·.listener.id == id)).map (·.listener)

/-- The listeners that events of a key go to, in their order. -/
def select (s : Snapshot β) (key : EventKey) : List (ResolvedListener β) :=
  s.listeners.filter (·.listener.isTarget key)

/-- **Looks up the listeners for a key**: those found before under its
name, or else those selected for it, which are kept under its name. -/
def targets (s : Snapshot β) (key : EventKey) : List (ResolvedListener β) × Snapshot β :=
  match Json.member? key.name s.found with
  | some found => (found, s)
  | none =>
    let found := s.select key
    (found, { s with found := (key.name, found) :: s.found })

/-- The number of interceptors that are entries of their own. -/
def interceptorCount (s : Snapshot β) : Nat := s.processing.length + s.serving.length

/-- All identifiers in use, in a fixed order. -/
def ids (s : Snapshot β) : List Id :=
  s.listeners.flatMap (·.listener.ids) ++ s.processing.map (·.id) ++ s.serving.map (·.id)

end Snapshot

/-! ## The registry -/

/-- The registry: its current snapshot, and the next free number. -/
structure Registry (β : Type) where
  snapshot : Snapshot β
  seq : Nat

namespace Registry

/-- The registry without entries. -/
def empty : Registry β := ⟨.empty, 0⟩

/-- **Adds several listeners**, all of them or none. -/
def registerAll (r : Registry β) (ls : List (Listener β)) :
    Except RegistryError Unit × Registry β :=
  match r.snapshot.draft.addListeners r.seq ls with
  | (.ok d, seq) => (.ok (), ⟨d.commit, seq⟩)
  | (.error e, seq) => (.error e, { r with seq })

/-- Adds a listener. -/
def register (r : Registry β) (l : Listener β) : Except RegistryError Unit × Registry β :=
  r.registerAll [l]

/-- Adds a processing interceptor. -/
def addProcessing (r : Registry β) (id : Id) (priority : Priority) (run : β) :
    Except RegistryError Unit × Registry β :=
  let d := r.snapshot.draft
  if d.contains id then (.error (.duplicateInterceptor id), r)
  else
    let entry : Interceptor β := ⟨id, priority, r.seq, run⟩
    (.ok (), ⟨{ d with processing := d.processing ++ [entry] }.commit, r.seq + 1⟩)

/-- Adds a listener interceptor that serves all listeners. -/
def addServing (r : Registry β) (id : Id) (priority : Priority) (point : InterceptPoint)
    (run : β) : Except RegistryError Unit × Registry β :=
  let d := r.snapshot.draft
  if d.contains id then (.error (.duplicateInterceptor id), r)
  else
    let entry : ListenerInterceptor β := { id, priority, seq := r.seq, run, point }
    (.ok (), ⟨{ d with serving := d.serving ++ [entry] }.commit, r.seq + 1⟩)

/-- **Removes the entry of an identifier.** -/
def unregister (r : Registry β) (id : Id) :
    Except RegistryError (Removed β) × Registry β :=
  match r.snapshot.draft.remove id with
  | .error e => (.error e, r)
  | .ok (d, removed) => (.ok removed, { r with snapshot := d.commit })

/-- Removes all entries. -/
def clear (r : Registry β) : Registry β := { r with snapshot := .empty }

/-- Looks up the listeners for a key. -/
def targets (r : Registry β) (key : EventKey) : List (ResolvedListener β) × Registry β :=
  let (found, snapshot) := r.snapshot.targets key
  (found, { r with snapshot })

/-- Whether events of a key would go to some listener. -/
def isProcessable (r : Registry β) (key : EventKey) : Bool × Registry β :=
  let (found, r) := r.targets key
  (!found.isEmpty, r)

end Registry

end Switchboard
