import Switchboard.Proofs.Dispatch.Outcomes
import Switchboard.Proofs.Hub.Evolution
import Switchboard.Proofs.Hub.Lookup
import Switchboard.Proofs.Registry.Keeping

/-!
# Dispatches and changes of the registry

A dispatch reads the registry once, when it begins. What it is given then
are the processing interceptors and the listeners the event goes to, each
with its chains, and from then on the registry can change as it likes: the
program that remains is a function of what was given
(`Beginning.program`), and the only code it runs is the code named there,
besides that of the sessions and the handler of failures
(`Beginning.program_congr`). What was registered meanwhile is code of
another name, and what was removed meanwhile is still named.

What is given comes from one snapshot, and this is the snapshot after some
calls on the registry, each made as a whole: a batch of listeners is one
call (`dispatch_isolated`). Which listeners are selected can depend on
earlier lookups in the same snapshot, but those of the event's own key, and
those of `any`, are selected in any case.
-/

namespace Switchboard

variable {β σ α : Type}

open HubProgram

/-! ## The code a dispatch runs -/

/-- **What remains of a dispatch** once it has been given what it works on. -/
def Beginning.program (b : Beginning β) (B : Behaviours β σ) (s : DispatchSettings) :
    HubProgram β σ (Except DispatchError DispatchResult) :=
  (resumeSessions B b.context).bind fun _ =>
    (runChain lift (listenersStage B s b) (processingStages B b.context b.processing)).bind
      fun result => .done (result.map fun (r, stopped) => r.ofChain stopped)

/-- The code of a listener and of its chains does the same. -/
structure ResolvedListener.SameCode (r : ResolvedListener β) (B B' : Behaviours β σ) : Prop where
  filters : ∀ f ∈ r.listener.filters, B.filter f = B'.filter f
  handler : B.handler r.listener.handler.run = B'.handler r.listener.handler.run
  before : ∀ i ∈ r.before, B.listenerInterceptor i.run = B'.listenerInterceptor i.run
  after : ∀ i ∈ r.after, B.listenerInterceptor i.run = B'.listenerInterceptor i.run

/-- **The code that is named in what a dispatch is given does the same**,
and so do the matchers of sessions and the handler of failures. -/
structure Beginning.SameCode (b : Beginning β) (B B' : Behaviours β σ) : Prop where
  matchers : B.matcher = B'.matcher
  onFailure : B.onFailure = B'.onFailure
  processing : ∀ i ∈ b.processing, B.processingInterceptor i.run = B'.processingInterceptor i.run
  targets : ∀ r ∈ b.targets, r.SameCode B B'

section Congr

variable {B B' : Behaviours β σ} {s : DispatchSettings} {c : EventContext} {lc : ListenerContext}
  {r : ResolvedListener β}

theorem offer_congr (h : B.matcher = B'.matcher) (kept ws : List (Waiter β)) :
    offer B c kept ws = offer B' c kept ws := by
  have hask : acceptedByWaiter B c = acceptedByWaiter B' c := by
    unfold acceptedByWaiter
    rw [h]
  induction ws generalizing kept with
  | nil => rfl
  | cons w ws ih =>
    unfold offer
    rw [hask]
    simp only [ih]

theorem handleFailure_congr (h : B.onFailure = B'.onFailure) :
    handleFailure B lc = handleFailure B' lc := by
  funext result
  unfold handleFailure
  rw [h]

theorem acceptedBy_congr {fs : List β} (h : ∀ f ∈ fs, B.filter f = B'.filter f) :
    acceptedBy B lc fs = acceptedBy B' lc fs := by
  induction fs with
  | nil => rfl
  | cons f fs ih =>
    unfold acceptedBy
    rw [h f List.mem_cons_self, ih fun g hg => h g (List.mem_cons_of_mem f hg)]

theorem listenerStages_congr {is : List (Interceptor β)}
    (h : ∀ i ∈ is, B.listenerInterceptor i.run = B'.listenerInterceptor i.run) :
    listenerStages B lc is = listenerStages B' lc is :=
  List.map_congr_left fun i hi => by rw [h i hi]

theorem guardHandler_congr {handler : Handler β}
    (h : B.handler handler.run = B'.handler handler.run) :
    guardHandler B s ⟨handler, lc⟩ = guardHandler B' s ⟨handler, lc⟩ := by
  unfold guardHandler runHandler
  rw [h]

theorem ResolvedListener.SameCode.matchThen_eq (h : r.SameCode B B') :
    matchThen B s r lc = matchThen B' s r lc := by
  funext f
  unfold matchThen invoke
  rw [acceptedBy_congr h.filters, listenerStages_congr h.after, guardHandler_congr h.handler]

theorem ResolvedListener.SameCode.attempt_eq (h : r.SameCode B B')
    (hfailure : B.onFailure = B'.onFailure) : attempt B s c r = attempt B' s c r := by
  have hrun : runListener B s r (r.context c) = runListener B' s r (r.context c) := by
    unfold runListener
    rw [h.matchThen_eq, listenerStages_congr h.before]
  unfold attempt guardListener
  rw [hrun, handleFailure_congr hfailure]

theorem attendAll_congr (hfailure : B.onFailure = B'.onFailure)
    {rs : List (ResolvedListener β)} (h : ∀ r ∈ rs, r.SameCode B B') :
    attendAll B s c rs = attendAll B' s c rs := by
  induction rs with
  | nil => rfl
  | cons r rs ih =>
    unfold attendAll
    rw [(h r List.mem_cons_self).attempt_eq hfailure,
      ih fun r' hr => h r' (List.mem_cons_of_mem r hr)]

/-- **What remains of a dispatch runs no code but what is named** in what
it was given. -/
theorem Beginning.program_congr {b : Beginning β} (h : b.SameCode B B') :
    b.program B s = b.program B' s := by
  have hoffer : offer B b.context [] = offer B' b.context [] := funext (offer_congr h.matchers [])
  have hsessions : resumeSessions B b.context = resumeSessions B' b.context := by
    unfold resumeSessions
    rw [hoffer]
  have hstages : processingStages B b.context b.processing
      = processingStages B' b.context b.processing :=
    List.map_congr_left fun i hi => by rw [h.processing i hi]
  unfold program listenersStage
  rw [hsessions, hstages, attendAll_congr h.onFailure h.targets]

end Congr

/-! ## What a dispatch is given -/

/-- Whatever has been looked up, the listeners for a key are some of the
snapshot in their order, and those of its name or of all names are among
them. -/
theorem Registry.Remembers.selection {r : Registry β} {keys : List EventKey}
    (h : r.Remembers keys) (key : EventKey) :
    (r.targets key).1.Sublist r.snapshot.listeners ∧
      ∀ l ∈ r.snapshot.listeners,
        l.listener.key.sameName key ∨ l.listener.key.sameName .any → l ∈ (r.targets key).1 := by
  obtain ⟨hname, -⟩ := sameName_first keys key
  rw [h.targets_eq key]
  generalize (keys.find? (·.sameName key)).getD key = first at hname ⊢
  refine ⟨List.filter_sublist, fun l hl hkey => List.mem_filter.mpr ⟨hl, ?_⟩⟩
  show first.isSubOf l.listener.key = true
  rcases hkey with hkey | hkey
  · exact EventKey.isSubOf_of_sameName
      (beq_iff_eq.mpr ((beq_iff_eq.mp hname).trans (beq_iff_eq.mp hkey).symm))
  · cases first with
    | mk name parents =>
      have hany : (l.listener.key.name == EventKey.any.name) = true := hkey
      unfold EventKey.isSubOf
      rw [hany]
      rfl

/-- **Dispatches and changes of the registry.** After any number of steps
of whatever runs, the registry is the one after the calls made so far, each
as a whole. A dispatch that begins then is given the processing
interceptors of this snapshot and a selection of its listeners with their
chains, and goes on as a program that this, and the code named in it,
determines: it attends to these listeners, and to no others, whatever
happens to the registry meanwhile. -/
theorem dispatch_isolated (B : Behaviours β σ) (limit : Option Nat) (n : Nat)
    (m : Scheduler β σ) (t : Scheduler.Turn β σ α) {before : List (RegistryCall β)}
    (hbefore : m.hub.registry = Registry.after before) (e : Event) :
    let now := (m.steps B limit n t).1
    let calls := before ++ m.registryCalls B limit n t
    let s := (Registry.after calls).snapshot
    let b := (now.hub.start e).1
    now.hub.registry = Registry.after calls ∧
      (∀ k, calls <+: before ++ m.registryCalls B limit (n + k) t) ∧
      (b.processing = s.processing ∧ b.targets.Sublist s.listeners ∧
        (∀ l ∈ s.listeners,
          l.listener.key.sameName e.key ∨ l.listener.key.sameName .any → l ∈ b.targets) ∧
        ∀ l ∈ s.listeners, l = resolve l.listener l.seq s.serving) ∧
      ∀ settings, (now.advance B (dispatch B settings e)).2 = .running (b.program B settings) ∧
        (∀ B', b.SameCode B B' → b.program B settings = b.program B' settings) ∧
        ∀ trace out, (b.program B settings).Runs trace (.ok out) →
          ∃ opening chain moves os attempts result stopped,
            Dispatched B settings b trace out opening chain moves os attempts result stopped := by
  intro now calls s b
  have hregistry : now.hub.registry = Registry.after calls := by
    rw [Scheduler.registry_steps, hbefore]
    exact (Registry.applyAll_append _ _ _).symm
  obtain ⟨es, hkeeps, -⟩ := Registry.keeps_after calls
  have hremembers : (Registry.after calls).Remembers _ :=
    (Registry.remembers_nil rfl).applyAll calls
  obtain ⟨hsublist, hmem⟩ := hremembers.selection e.key
  have htargets : b.targets = ((Registry.after calls).targets e.key).1 := by
    rw [← hregistry]
    rfl
  have hprocessing : b.processing = s.processing := by
    show now.hub.registry.snapshot.processing = _
    rw [hregistry]
  refine ⟨hregistry, fun k => ?_, ⟨hprocessing, ?_, ?_, hkeeps.resolved⟩, fun settings =>
    ⟨rfl, fun B' hB => Beginning.program_congr hB, fun trace out hrun => ?_⟩⟩
  · exact (List.prefix_append_right_inj _).mpr (Scheduler.registryCalls_prefix B limit n k m t)
  · rw [htargets]
    exact hsublist
  · rw [htargets]
    exact hmem
  · obtain ⟨opening, chain, moves, os, attempts, result, stopped, hall, -⟩ :=
      dispatched_of_runs (e := e) (.call hrun)
    exact ⟨opening, chain, moves, os, attempts, result, stopped, hall⟩

/-- A program registers a listener for all events, and a dispatch that
begins after its step goes to the listener. -/
theorem dispatch_isolated_registered :
    let l := (ResolvedListener.returning 1 .absent).listener
    let m : Scheduler Returned Unit := .fresh (.fresh .empty .default ())
    let now := (m.steps .returning none 1 (.main (request (.registerAll [l])))).1
    now.hub.registry = Registry.after [.registerAll [l]] ∧
      resolve l 0 [] ∈ (now.hub.start .bare).1.targets := by
  intro l m now
  obtain ⟨hregistry, -, ⟨-, -, hmem, -⟩, -⟩ := dispatch_isolated .returning none 1 m
    (.main (request (.registerAll [l]))) (show _ = Registry.after [] from rfl) .bare
  refine ⟨hregistry, hmem _ ?_ (.inr rfl)⟩
  show _ ∈ ([(l, 0)].mergeSort _).map (fun p => resolve p.1 p.2 (List.mergeSort [] _))
  rw [List.mergeSort_singleton, List.mergeSort_nil]
  exact List.mem_cons_self

end Switchboard
