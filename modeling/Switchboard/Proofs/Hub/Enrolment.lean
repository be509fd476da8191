import Switchboard.Proofs.Hub.Evolution
import Switchboard.Proofs.Hub.Lookup
import Switchboard.Proofs.Registry.Wrapping

/-!
# Where the entries of a registry come from

An entry of a registry is there because somebody asked for it to be added
and this was accepted. So if all that a registry holds was registered by some
exchanges, then what it holds when a hub has served a call was registered by
these or by this one (`Registry.Enrolled.serve`).

A dispatch that begins is given listeners with their chains, and processing
interceptors. All of them are entries, or attached to one, although the
listeners may have been found by an earlier lookup (`enrolled_start`).
-/

namespace Switchboard

variable {β σ α : Type}

/-- **An exchange registers an entry**: it was asked for and was accepted. -/
inductive Registers : Entry β → Exchange (hubCalls β σ) → Prop
  | listener {ls : List (Listener β)} {l : Listener β} : l ∈ ls →
      Registers (.listener l) ⟨.user (.request (.registerAll ls)), (.ok () : Except _ Unit)⟩
  | processing (id : Id) (priority : Priority) (run : β) :
      Registers (.interceptor (.processing id priority run))
        ⟨.user (.request (.addProcessing id priority run)), (.ok () : Except _ Unit)⟩
  | serving (id : Id) (priority : Priority) (point : InterceptPoint) (run : β) :
      Registers (.interceptor (.serving id priority point run))
        ⟨.user (.request (.addServing id priority point run)), (.ok () : Except _ Unit)⟩

/-- An entry was registered by some of these exchanges. -/
def Entry.RegisteredIn (e : Entry β) (x : HubTrace β σ) : Prop := ∃ y ∈ x, Registers e y

theorem Entry.RegisteredIn.append {e : Entry β} {x : HubTrace β σ} (h : e.RegisteredIn x)
    (x' : HubTrace β σ) : e.RegisteredIn (x ++ x') := by
  obtain ⟨y, hy, he⟩ := h
  exact ⟨y, List.mem_append_left _ hy, he⟩

/-- The entries that a call adds if it is accepted. -/
def RegistryCall.additions : RegistryCall β → Ledger β
  | registerAll ls => ls.map .listener
  | add i => [.interceptor i]
  | _ => []

/-- **What a ledger holds after a call** was there before, or the call is
accepted and adds it. -/
theorem Ledger.mem_apply {g : Ledger β} {c : RegistryCall β} {e : Entry β} (he : e ∈ g.apply c) :
    e ∈ g ∨ g.accepts c ∧ e ∈ c.additions := by
  have hadd : ∀ {es : Ledger β}, e ∈ g.add es → e ∈ g ∨ (g.ids ++ es.ids).Nodup ∧ e ∈ es := by
    intro es he
    unfold add at he
    split at he
    · next hn => exact (List.mem_append.mp he).imp_right fun he => ⟨hn, he⟩
    · exact .inl he
  cases c with
  | registerAll ls => exact hadd he
  | add i => exact hadd he
  | unregister id => exact .inl (List.mem_filter.mp he).1
  | clear => exact absurd he List.not_mem_nil
  | lookUp key => exact .inl he

namespace Registry

/-- **All that a registry holds was registered by some of these exchanges.**
What it has found was found among that. -/
def Enrolled (r : Registry β) (x : HubTrace β σ) : Prop :=
  ∃ es keys, r.Keeps es ∧ r.Remembers keys ∧ ∀ e ∈ es.entries, e.RegisteredIn x

variable {r : Registry β} {x : HubTrace β σ}

theorem Enrolled.append (h : r.Enrolled x) (x' : HubTrace β σ) : r.Enrolled (x ++ x') := by
  obtain ⟨es, keys, hkeeps, hremembers, hall⟩ := h
  exact ⟨es, keys, hkeeps, hremembers, fun e he => (hall e he).append x'⟩

/-- A registry that was cleared holds nothing. -/
theorem enrolled_clear (r : Registry β) : r.clear.Enrolled ([] : HubTrace β σ) :=
  ⟨[], [], keeps_nil r.seq, remembers_nil rfl, fun _ he => absurd he List.not_mem_nil⟩

/-- **A call that a hub serves** registers what it adds to the registry. -/
theorem Enrolled.serve {h h' : Hub β σ} {c : HubCall β σ} {a : c.Reply}
    (hs : h.serve c = some (a, h')) (he : h.registry.Enrolled x) :
    h'.registry.Enrolled (x ++ [⟨c, a⟩]) := by
  rw [Hub.registry_of_serve hs]
  cases hcall : c.registryCall? with
  | none => exact he.append _
  | some call =>
    obtain ⟨es, keys, hkeeps, hremembers, hall⟩ := he
    obtain ⟨es', hkeeps', hentries, -, haccepts⟩ := keeps_apply hkeeps call
    refine ⟨es', _, hkeeps', hremembers.apply call, fun e he => ?_⟩
    rw [hentries] at he
    rcases Ledger.mem_apply he with he | ⟨haccepted, he⟩
    · exact (hall e he).append _
    -- the entry is new, so the reply is that it was added
    refine ⟨⟨c, a⟩, List.mem_append_right _ (List.mem_singleton.mpr rfl), ?_⟩
    have hok := haccepts.mpr haccepted
    have hreply := congrArg (Option.map Prod.fst) hs
    cases c with
    | user c =>
      cases c with
      | request q =>
        cases q with
        | registerAll ls =>
          obtain rfl := Option.some.inj hcall
          obtain ⟨l, hl, rfl⟩ := List.mem_map.mp he
          obtain rfl : .ok () = a := hok.symm.trans (Option.some.inj hreply)
          exact .listener hl
        | addProcessing id priority run =>
          obtain rfl := Option.some.inj hcall
          obtain rfl := List.mem_singleton.mp he
          obtain rfl : .ok () = a := hok.symm.trans (Option.some.inj hreply)
          exact .processing id priority run
        | addServing id priority point run =>
          obtain rfl := Option.some.inj hcall
          obtain rfl := List.mem_singleton.mp he
          obtain rfl : .ok () = a := hok.symm.trans (Option.some.inj hreply)
          exact .serving id priority point run
        | isProcessable key =>
          obtain rfl := Option.some.inj hcall
          exact absurd he List.not_mem_nil
        | unregister id =>
          obtain rfl := Option.some.inj hcall
          exact absurd he List.not_mem_nil
        | clearRegistry =>
          obtain rfl := Option.some.inj hcall
          exact absurd he List.not_mem_nil
        | _ => exact absurd hcall (by simp [HubCall.registryCall?])
      | _ => exact absurd hcall (by simp [HubCall.registryCall?])
    | start e =>
      obtain rfl := Option.some.inj hcall
      exact absurd he List.not_mem_nil
    | _ => exact absurd hcall (by simp [HubCall.registryCall?])

end Registry

/-! ## Dispatches that begin -/

/-- **Whoever takes part in a dispatch that begins** was registered by some
of these exchanges: its listeners, the interceptors around them unless they
are attached to the listener, and the interceptors around the whole. -/
structure Beginning.Enrolled (b : Beginning β) (x : HubTrace β σ) : Prop where
  targets : ∀ l ∈ b.targets, (Entry.listener l.listener).RegisteredIn x
  chains : ∀ l ∈ b.targets, ∀ point, ∀ i ∈ l.chain point,
    (∃ own ∈ l.listener.interceptors, own.point = point ∧ own.toInterceptor = i) ∨
      (Entry.interceptor (.serving i.id i.priority point i.run)).RegisteredIn x
  processing : ∀ i ∈ b.processing, (Entry.interceptor i.planned).RegisteredIn x

/-- What wraps a listener serves all of them or is attached to it. -/
theorem mem_wrappers {l : Listener β} {serving : List (ListenerInterceptor β)}
    {w : ListenerInterceptor β} (hw : w ∈ wrappers l serving) :
    w ∈ serving ∨ w ∈ l.interceptors := by
  obtain ⟨v, hv, rfl⟩ := List.mem_map.mp hw
  rcases List.mem_append.mp (List.mem_mergeSort.mp hv) with hv | hv
  · obtain ⟨i, hi, rfl⟩ := List.mem_map.mp hv
    exact .inl hi
  · obtain ⟨i, hi, rfl⟩ := List.mem_map.mp hv
    exact .inr hi

namespace Entry

theorem eq_of_listener? {e : Entry β} {l : Listener β} (h : e.listener? = some l) :
    e = .listener l := by
  cases e with
  | listener l' => exact congrArg listener (Option.some.inj h)
  | interceptor i => exact absurd h (by simp [listener?])

theorem eq_of_processing? {e : Entry β} {i : PlannedInterceptor β}
    (h : e.processing? = some i) : e = .interceptor i := by
  rcases e with l | ⟨id, priority, run⟩ | ⟨id, priority, point, run⟩
  · exact absurd h (by simp [processing?])
  · exact congrArg interceptor (Option.some.inj h)
  · exact absurd h (by simp [processing?])

theorem eq_of_serving? {e : Entry β} {i : PlannedInterceptor β} (h : e.serving? = some i) :
    e = .interceptor i := by
  rcases e with l | ⟨id, priority, run⟩ | ⟨id, priority, point, run⟩
  · exact absurd h (by simp [serving?])
  · exact absurd h (by simp [serving?])
  · exact congrArg interceptor (Option.some.inj h)

end Entry

/-- What entries of one sort are listed as, in their order, are entries. -/
theorem Ledger.mem_of_listed {γ δ : Type} {es : Ledger β} {xs : List γ} {f : γ → δ}
    {sort? : Entry β → Option δ} {le : δ → δ → Bool} {entry : δ → Entry β}
    (hxs : xs.map f = (es.filterMap sort?).mergeSort le)
    (hentry : ∀ {e d}, sort? e = some d → e = entry d) {x : γ} (hx : x ∈ xs) :
    entry (f x) ∈ es := by
  have hmem : f x ∈ xs.map f := List.mem_map_of_mem hx
  rw [hxs, List.mem_mergeSort] at hmem
  obtain ⟨e, he, hsort⟩ := List.mem_filterMap.mp hmem
  exact hentry hsort ▸ he

namespace Registry

variable {r : Registry β} {es : NumberedLedger β}

theorem Keeps.entry_of_mem_listeners (h : r.Keeps es) {l : ResolvedListener β}
    (hl : l ∈ r.snapshot.listeners) : .listener l.listener ∈ es.entries :=
  Ledger.mem_of_listed h.listeners_eq Entry.eq_of_listener? hl

theorem Keeps.entry_of_mem_processing (h : r.Keeps es) {i : Interceptor β}
    (hi : i ∈ r.snapshot.processing) : .interceptor i.planned ∈ es.entries :=
  Ledger.mem_of_listed h.processing_eq Entry.eq_of_processing? hi

theorem Keeps.entry_of_mem_serving (h : r.Keeps es) {i : ListenerInterceptor β}
    (hi : i ∈ r.snapshot.serving) : .interceptor i.planned ∈ es.entries :=
  Ledger.mem_of_listed h.serving_eq Entry.eq_of_serving? hi

/-- **A dispatch that begins is given what the registry holds.** -/
theorem enrolled_start {h : Hub β σ} {x : HubTrace β σ} (he : h.registry.Enrolled x) (e : Event) :
    (h.start e).1.Enrolled x := by
  obtain ⟨es, keys, hkeeps, hremembers, hall⟩ := he
  have hlisted : ∀ l ∈ (h.start e).1.targets, l ∈ h.registry.snapshot.listeners := by
    intro l hl
    rw [show (h.start e).1.targets = _ from hremembers.targets_eq e.key] at hl
    exact (List.mem_filter.mp hl).1
  refine ⟨fun l hl => ?_, fun l hl point i hi => ?_, fun i hi => ?_⟩
  · exact hall _ (hkeeps.entry_of_mem_listeners (hlisted l hl))
  · rw [hkeeps.resolved l (hlisted l hl), chain_resolve] at hi
    obtain ⟨w, hw, rfl⟩ := List.mem_map.mp hi
    obtain ⟨hwraps, hpoint⟩ := List.mem_filter.mp hw
    obtain rfl := beq_iff_eq.mp hpoint
    rcases mem_wrappers hwraps with hserves | hown
    · exact .inr (hall _ (hkeeps.entry_of_mem_serving hserves))
    · exact .inl ⟨w, hown, rfl, rfl⟩
  · exact hall _ (hkeeps.entry_of_mem_processing hi)

end Registry

end Switchboard
