import Switchboard.Proofs.Registry.Ledger

/-!
# Looking up listeners

A lookup keeps what it found under the name of the key, and a later lookup
of a key of this name finds it there. What it finds was selected for the
key that came first, so what a key is served depends on the keys that were
looked up before it, as far as they have its name.

Only lookups since the last change count: a change makes a new snapshot,
in which nothing has been looked up. `Registry.lookedUp` lists the keys
that count, and the snapshot remembers each name as it was selected for
the first of them that has it (`Registry.Remembers`). One call preserves
this, so all calls do.

Where one name means one list of ancestors, all keys of a name are
selected the same listeners, and nothing of this shows. It is not enough
that keys are equal, for that is a matter of their names
(`start_targets_stale`).
-/

namespace Switchboard

variable {β σ : Type}

/-- An interceptor makes a new snapshot, or it is refused. -/
theorem PlannedInterceptor.addTo_cases (i : PlannedInterceptor β) (r : Registry β) :
    (∃ d : Draft β, i.addTo r = (.ok (), ⟨d.commit, r.seq + 1⟩)) ∨
      i.addTo r = (.error (.duplicateInterceptor i.id), r) := by
  by_cases hid : r.snapshot.draft.contains i.id = true
  · cases i <;> exact .inr (if_pos hid)
  · cases i <;> exact .inl ⟨_, if_neg hid⟩

namespace Registry

/-! ## The keys that were looked up -/

/-- Whether a call makes a new snapshot. -/
def replaces (r : Registry β) : RegistryCall β → Bool
  | .registerAll ls => (r.registerAll ls).1.isOk
  | .add i => (i.addTo r).1.isOk
  | .unregister id => (r.unregister id).1.isOk
  | .clear => true
  | .lookUp _ => false

/-- The keys that were looked up in the snapshot after a call, if `keys`
are those before it. -/
def lookedUpBy (r : Registry β) (keys : List EventKey) (c : RegistryCall β) : List EventKey :=
  if r.replaces c then []
  else match c with
    | .lookUp key => keys ++ [key]
    | _ => keys

/-- **The keys that were looked up** since the last change, the first one
first. -/
def lookedUp (r : Registry β) (keys : List EventKey) : List (RegistryCall β) → List EventKey
  | [] => keys
  | c :: calls => lookedUp (r.apply c) (r.lookedUpBy keys c) calls

/-- **What a snapshot remembers** under a name is what it selects for the
first key of this name that was looked up. -/
def Remembers (r : Registry β) (keys : List EventKey) : Prop :=
  ∀ name, Json.member? name r.snapshot.found
    = (keys.find? (·.name == name)).map r.snapshot.select

variable {r : Registry β} {keys : List EventKey}

/-- A new snapshot remembers nothing. -/
theorem remembers_nil (h : r.snapshot.found = []) : r.Remembers [] := by
  intro name
  rw [h]
  rfl

/-- Numbers that are drawn do not matter. -/
theorem Remembers.congr {r' : Registry β} (h : r.Remembers keys)
    (hs : r'.snapshot = r.snapshot) : r'.Remembers keys := by
  intro name
  rw [hs]
  exact h name

/-- A lookup is remembered if it is the first of its name. -/
theorem Remembers.targets (h : r.Remembers keys) (key : EventKey) :
    (r.targets key).2.Remembers (keys ++ [key]) := by
  intro name
  rw [List.find?_append]
  show Json.member? name (r.snapshot.targets key).2.found
    = Option.map (r.snapshot.targets key).2.select _
  unfold Snapshot.targets
  have hkey := h key.name
  cases hfirst : keys.find? (·.name == key.name) with
  | some first =>
    rw [hfirst] at hkey
    rw [hkey]
    -- the name is remembered already, and `key` is not the first to have it
    by_cases hname : name = key.name
    · rw [hname, hfirst]
      exact hkey
    · rw [List.find?_cons_of_neg (by simpa using Ne.symm hname), List.find?_nil, Option.or_none]
      exact h name
  | none =>
    rw [hfirst] at hkey
    rw [hkey]
    show Json.member? name ((key.name, r.snapshot.select key) :: r.snapshot.found)
      = Option.map r.snapshot.select _
    unfold Json.member?
    by_cases hname : key.name = name
    · subst hname
      rw [List.find?_cons_of_pos (by simp), hfirst, Option.none_or,
        List.find?_cons_of_pos (by simp)]
      rfl
    · rw [List.find?_cons_of_neg (by simpa using hname),
        List.find?_cons_of_neg (by simpa using hname), List.find?_nil, Option.or_none]
      exact h name

/-- **A call preserves what is remembered**: a new snapshot remembers
nothing, a lookup is remembered, and a call that is refused changes
nothing. -/
theorem Remembers.apply (h : r.Remembers keys) (c : RegistryCall β) :
    (r.apply c).Remembers (r.lookedUpBy keys c) := by
  cases c with
  | registerAll ls =>
    show (r.registerAll ls).2.Remembers (if (r.registerAll ls).1.isOk then [] else keys)
    unfold registerAll
    match r.snapshot.draft.addListeners r.seq ls with
    | (.ok d, seq) => exact remembers_nil rfl
    | (.error e, seq) => exact h.congr rfl
  | add i =>
    show (i.addTo r).2.Remembers (if (i.addTo r).1.isOk then [] else keys)
    rcases i.addTo_cases r with ⟨d, hi⟩ | hi
    · rw [hi]
      exact remembers_nil rfl
    · rw [hi]
      exact h
  | unregister id =>
    show (r.unregister id).2.Remembers (if (r.unregister id).1.isOk then [] else keys)
    unfold unregister
    match r.snapshot.draft.remove id with
    | .ok (d, removed) => exact remembers_nil rfl
    | .error e => exact h
  | clear => exact remembers_nil rfl
  | lookUp key => exact h.targets key

theorem Remembers.applyAll (h : r.Remembers keys) (calls : List (RegistryCall β)) :
    (r.applyAll calls).Remembers (r.lookedUp keys calls) := by
  induction calls generalizing r keys with
  | nil => exact h
  | cons c calls ih => exact ih (h.apply c)

/-- **A key is served as the first key of its name.** -/
theorem Remembers.targets_eq (h : r.Remembers keys) (key : EventKey) :
    (r.targets key).1 = r.snapshot.select ((keys.find? (·.sameName key)).getD key) := by
  have hkey := h key.name
  show (r.snapshot.targets key).1 = _
  unfold Snapshot.targets EventKey.sameName
  cases hfirst : keys.find? (·.name == key.name) with
  | some first =>
    rw [hfirst] at hkey
    rw [hkey]
    rfl
  | none =>
    rw [hfirst] at hkey
    rw [hkey]
    rfl

/-- The first of the keys that has the name of a key, or else the key
itself, has this name. -/
theorem sameName_first (keys : List EventKey) (key : EventKey) :
    let first := (keys.find? (·.sameName key)).getD key
    first.sameName key = true ∧ (first = key ∨ first ∈ keys) := by
  cases hfirst : keys.find? (·.sameName key) with
  | none => exact ⟨beq_self_eq_true _, .inl rfl⟩
  | some k =>
    have hname : k.sameName key = true :=
      List.find?_some (p := fun k : EventKey => k.sameName key) hfirst
    exact ⟨hname, .inr (List.mem_of_find?_eq_some hfirst)⟩

end Registry

/-- **What the events of a key go to** depends on what was looked up
before. A dispatch that begins, and whoever asks whether a key would go to
some listener, is told what the snapshot selects for the first key of the
same name that was looked up since the last change, and only where there
is none what it selects for the key itself. The two are the same if all
keys of the name that were looked up have the same listeners. -/
theorem start_targets_first (h : Hub β σ) {calls : List (RegistryCall β)}
    (hcalls : h.registry = Registry.after calls) (e : Event) :
    let s := h.registry.snapshot
    let keys := Registry.empty.lookedUp [] calls
    let first := (keys.find? (·.sameName e.key)).getD e.key
    (h.start e).1.targets = s.select first ∧
      (h.answer (.isProcessable e.key)).1 = !(s.select first).isEmpty ∧
      first.sameName e.key ∧ (first = e.key ∨ first ∈ keys) ∧
      ((∀ k ∈ keys, k.sameName e.key → s.select k = s.select e.key) →
        (h.start e).1.targets = s.select e.key ∧
          (h.answer (.isProcessable e.key)).1 = !(s.select e.key).isEmpty) := by
  intro s keys first
  have hremembers : h.registry.Remembers keys := by
    rw [hcalls]
    exact (Registry.remembers_nil rfl).applyAll calls
  have htargets : (h.registry.targets e.key).1 = s.select first := hremembers.targets_eq e.key
  have hprocessable : (h.answer (.isProcessable e.key)).1 = !(s.select first).isEmpty :=
    congrArg (fun found : List (ResolvedListener β) => !found.isEmpty) htargets
  obtain ⟨hname, hmem⟩ := Registry.sameName_first keys e.key
  refine ⟨htargets, hprocessable, hname, hmem, fun hsame => ?_⟩
  have hselect : s.select first = s.select e.key := by
    rcases hmem with heq | hmem
    · exact congrArg s.select heq
    · exact hsame first hmem hname
  exact ⟨htargets.trans hselect, hprocessable.trans (by rw [hselect])⟩

/-- A listener for the events of a key. -/
def Listener.plain (id : Id) (key : EventKey) : Listener Unit :=
  ⟨id, key, .normal, .blocking, [], [], ⟨[], ()⟩⟩

/-- An event of a key that carries nothing. -/
def Event.ofKey (key : EventKey) : Event := ⟨key, "a", none, none, .null⟩

/-- A hub with a listener for the key `message`, in which an event of a
key without parents has come. -/
def Hub.afterFirst : Hub Unit Unit :=
  let l := Listener.plain ⟨"l", by decide⟩ (.mk "message" [])
  ((Hub.fresh (Registry.after [.registerAll [l]]) .default ()).start (.ofKey (.mk "x" []))).2

/-- A key of the same name with the parent `message` is served as the key
that came first, and so is one of another name as itself. -/
theorem start_targets_first_afterFirst :
    let s := Hub.afterFirst.registry.snapshot
    let child := EventKey.mk "x" [.mk "message" []]
    let other := EventKey.mk "y" [.mk "message" []]
    (Hub.afterFirst.start (.ofKey child)).1.targets = s.select (.mk "x" []) ∧
      (Hub.afterFirst.start (.ofKey other)).1.targets = s.select other := by
  intro s child other
  let calls : List (RegistryCall Unit) :=
    [.registerAll [.plain ⟨"l", by decide⟩ (.mk "message" [])], .lookUp (.mk "x" [])]
  have hcalls : Hub.afterFirst.registry = Registry.after calls := rfl
  obtain ⟨hchild, -⟩ := start_targets_first Hub.afterFirst hcalls (.ofKey child)
  obtain ⟨-, -, -, -, hother⟩ := start_targets_first Hub.afterFirst hcalls (.ofKey other)
  refine ⟨hchild, (hother fun k hk hname => ?_).1⟩
  rw [show Registry.empty.lookedUp [] calls = [.mk "x" []] from rfl, List.mem_singleton] at hk
  rw [hk] at hname
  exact absurd hname (by decide)

/-- **A lookup can be stale**: the snapshot selects the listener for the
child of `message`, but its events go to no listener, for a key of the
same name has come first. -/
theorem start_targets_stale :
    let child := EventKey.mk "x" [.mk "message" []]
    (Hub.afterFirst.registry.snapshot.select child).map (·.listener.id.text) = ["l"] ∧
      (Hub.afterFirst.start (.ofKey child)).1.targets = [] ∧
      (Hub.afterFirst.answer (.isProcessable child)).1 = false := by
  intro child
  let l := Listener.plain ⟨"l", by decide⟩ (.mk "message" [])
  have hlisteners : Hub.afterFirst.registry.snapshot.listeners = [resolve l 0 []] := by
    show ([(l, 0)].mergeSort _).map (fun p => resolve p.1 p.2 (List.mergeSort [] _)) = _
    rw [List.mergeSort_singleton, List.mergeSort_nil]
    rfl
  have hfound : Hub.afterFirst.registry.snapshot.found = [("x", [])] := by
    show [("x", (([(l, 0)].mergeSort _).map
      (fun p => resolve p.1 p.2 (List.mergeSort [] _))).filter _)] = _
    rw [List.mergeSort_singleton, List.mergeSort_nil]
    rfl
  have htargets : Hub.afterFirst.registry.snapshot.targets child
      = ([], Hub.afterFirst.registry.snapshot) := by
    unfold Snapshot.targets
    rw [hfound]
    rfl
  refine ⟨?_, congrArg Prod.fst htargets, ?_⟩
  · unfold Snapshot.select
    rw [hlisteners]
    decide
  · show (!(Hub.afterFirst.registry.snapshot.targets child).1.isEmpty) = false
    rw [htargets]
    rfl

end Switchboard
