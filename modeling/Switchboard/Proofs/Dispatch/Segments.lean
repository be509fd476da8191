import Switchboard.Dispatch.Basic
import Switchboard.Proofs.Chain.Rule

/-!
# The two segments of a listener's chain

The interceptors of a listener are run in two segments, those around the
match and those around the handler, each as a chain. The second is run by
the terminal of the first, in the frame of the first, if all filters
accept.

They are one chain (`ResolvedListener.links`): the interceptors of both
segments with a gate between, which asks the filters in order up to the
first that rejects, and refuses with an invalid result that does not stop
the chain. The programs are equal, so are effects, results and frames, and
what an interceptor can see of its chain does not depend on its segment.

The rule of a chain with a gate then says who comes before the handler
(`segments_as_one_chain`).
-/

namespace Switchboard

variable {β σ : Type}

open HubProgram LinkNote

/-! ## The filters as a question -/

/-- Whether all filters accept, asked in order up to the first that does
not. -/
def askFilters (B : Behaviours β σ) (c : ListenerContext) : List β → Program (userCalls β σ) Bool
  | [] => .done true
  | f :: rest =>
    (B.filter f c).ofRequests.bind fun
      | true => askFilters B c rest
      | false => .done false

/-- **All filters accept**, each in a part of the exchanges, in order. -/
def AllAccept (B : Behaviours β σ) (c : ListenerContext) :
    List β → List (Exchange (hubCalls β σ)) → Prop
  | [], t => t = []
  | f :: rest, t =>
    ∃ u v, t = u ++ v ∧ (ofRequests (B.filter f c)).Runs u (.ok true) ∧ AllAccept B c rest v

variable {B : Behaviours β σ} {s : DispatchSettings} {c : ListenerContext}

theorem ofUser_ofRequests {α : Type} (p : Program (requests β σ) α) :
    ofUser p.ofRequests = ofRequests p := by
  induction p with
  | done a => rfl
  | panic q => rfl
  | call r next ih => exact congrArg (Program.call _) (funext ih)

/-- The question is the one that the match asks. -/
theorem ofUser_askFilters (fs : List β) : ofUser (askFilters B c fs) = acceptedBy B c fs := by
  induction fs with
  | nil => rfl
  | cons f fs ih =>
    unfold askFilters acceptedBy
    show ofUser (Program.bind _ _) = _
    unfold ofUser
    rw [Program.interpret_bind]
    show (ofUser (B.filter f c).ofRequests).bind _ = _
    rw [ofUser_ofRequests]
    refine congrArg _ (funext fun answer => ?_)
    cases answer with
    | true => exact ih
    | false => rfl

/-- **The answer is yes** if all filters accept. -/
theorem runs_acceptedBy_true_iff {fs : List β} {t : List (Exchange (hubCalls β σ))} :
    (acceptedBy B c fs).Runs t (.ok true) ↔ AllAccept B c fs t := by
  induction fs generalizing t with
  | nil =>
    show (Program.done true).Runs t (.ok true) ↔ t = []
    rw [Program.runs_done_iff]
    exact and_iff_left rfl
  | cons f fs ih =>
    unfold acceptedBy AllAccept
    rw [Program.runs_bind_ok_iff]
    constructor
    · rintro ⟨answer, u, v, rfl, hu, hv⟩
      cases answer with
      | true => exact ⟨u, v, rfl, hu, ih.mp hv⟩
      | false => exact absurd (Program.runs_done_iff.mp hv).2 (by simp)
    · rintro ⟨u, v, rfl, hu, hv⟩
      exact ⟨true, u, v, rfl, hu, ih.mpr hv⟩

/-! ## One chain -/

/-- **The chain of a listener**: the interceptors around the match, the
match, and the interceptors around the handler. -/
def ResolvedListener.links (r : ResolvedListener β) (B : Behaviours β σ) (c : ListenerContext) :
    List (Link β σ EventResult) :=
  (listenerStages B c r.before).map (·.link) ++
    .gate r.listener.id (askFilters B c r.listener.filters) (.ok .invalid) ::
      (listenerStages B c r.after).map (·.link)

/-- The place of the match among the links, which is the number of the
interceptors before it. -/
def ResolvedListener.matchPlace (r : ResolvedListener β) : Nat := r.before.length

/-- The place of the handler, after all links. -/
def ResolvedListener.handlerPlace (r : ResolvedListener β) : Nat :=
  r.before.length + 1 + r.after.length

/-- The chain of a listener, which notes what happens in it. -/
def ResolvedListener.runNoting (r : ResolvedListener β) (B : Behaviours β σ)
    (s : DispatchSettings) (c : ListenerContext) :
    Program ((hubCalls β σ).noting LinkNote)
      (Frame EventResult × Except DispatchError EventResult) :=
  runLinksNoting lift (terminalNoting (invoke B s r.listener c) r.handlerPlace) 0 (r.links B c)
    .start

/-- The match comes after exchanges in which all filters have accepted. -/
def ResolvedListener.Matched (r : ResolvedListener β) (B : Behaviours β σ) (c : ListenerContext)
    (past : List (Exchange ((hubCalls β σ).noting LinkNote))) : Prop :=
  ∃ u t, past = u ++ t.map .quiet ∧ AllAccept B c r.listener.filters t

/-- The middle of a listener's chain asks the filters and goes on with the
interceptors around the handler. -/
theorem matchThen_eq (r : ResolvedListener β) :
    matchThen B s r c = fun f =>
      ((askFilters B c r.listener.filters).interpret lift).bind fun
        | true => runStages lift (invoke B s r.listener c) (listenerStages B c r.after) f
        | false => .done (f, .ok .invalid) := by
  funext f
  show matchThen B s r c f = (ofUser (askFilters B c _)).bind _
  rw [ofUser_askFilters]
  refine congrArg (acceptedBy B c r.listener.filters).bind (funext fun answer => ?_)
  cases answer <;> rfl

/-- **The segments are one chain.** -/
theorem runStages_matchThen (r : ResolvedListener β) :
    runStages lift (matchThen B s r c) (listenerStages B c r.before) .start
      = runLinks lift (invoke B s r.listener c) (r.links B c) .start := by
  rw [matchThen_eq]
  exact runStages_gate _ _ _ _ _

/-- A handler is awaited or started and leaves the frame as it is. -/
theorem invoke_keeps {l : Listener β} {f : Frame EventResult}
    {t : List (Exchange (hubCalls β σ))} {x : Frame EventResult × Except DispatchError EventResult}
    (hrun : (invoke B s l c f).Runs t (.ok x)) : x.1 = f := by
  unfold invoke at hrun
  cases hm : l.mode with
  | blocking =>
    rw [hm] at hrun
    obtain ⟨a, u, v, -, -, hv⟩ := Program.runs_bind_ok_iff.mp hrun
    rw [Except.ok.inj (Program.runs_done_iff.mp hv).2]
  | async =>
    rw [hm] at hrun
    obtain ⟨h, u, -, hu⟩ := Program.runs_call_iff.mp hrun
    rw [Except.ok.inj (Program.runs_done_iff.mp hu).2]

/-- **The chain of a listener abides by the rule** of a chain with a gate. -/
theorem abides_runNoting (r : ResolvedListener β) :
    (r.runNoting B s c).Abides (rule r.matchPlace (r.Matched B c))
      (fun past x => Quit r.matchPlace 0 [] x.1 (Exchange.notes past)) [] := by
  have hbefore : (listenerStages B c r.before).length = r.before.length := List.length_map _
  have hafter : (listenerStages B c r.after).length = r.after.length := List.length_map _
  unfold ResolvedListener.runNoting ResolvedListener.links ResolvedListener.handlerPlace
    ResolvedListener.matchPlace
  rw [← hbefore, ← hafter]
  refine abides_runLinksNoting (fun f t x => invoke_keeps) _ _ _ _ _ fun past t ht =>
    ⟨past, t, rfl, ?_⟩
  rw [← runs_acceptedBy_true_iff, ← ofUser_askFilters]
  exact ht

theorem length_links (r : ResolvedListener β) : (r.links B c).length = r.handlerPlace := by
  unfold ResolvedListener.links ResolvedListener.handlerPlace listenerStages
  simp only [List.length_append, List.length_cons, List.length_map]
  omega

/-- Noting what happens in the chain of a listener changes nothing. -/
theorem unnoted_runNoting (r : ResolvedListener β) :
    (r.runNoting B s c).unnoted
      = runLinks lift (invoke B s r.listener c) (r.links B c) .start := by
  unfold ResolvedListener.runNoting
  rw [← length_links (B := B) (c := c), ← Nat.zero_add (r.links B c).length]
  exact unnoted_runLinksNoting _ _ 0 _

/-- **The segments of a listener behave as one chain.** The chain that
looks after the segments one inside the other is the program of the one
chain of both, with the same frame at its end. Every run of it, be its end
a value or a panic, has notes, and they tell this.

* Places are entered in order, each at most once: so is the handler's.
* When the handler is invoked, all interceptors of both segments and the
  match have proceeded, none has put in a result or been left, and all
  filters have accepted.
* An interceptor that looks at its chain is told that the chain has
  stopped if and only if some interceptor, of whatever segment, has put in
  a result or was left without having proceeded. That the match was left so
  does not count.
* The same is true of the frame at the end. -/
theorem segments_as_one_chain (B : Behaviours β σ) (s : DispatchSettings)
    (r : ResolvedListener β) (c : ListenerContext) :
    runStages lift (matchThen B s r c) (listenerStages B c r.before) .start
        = runLinks lift (invoke B s r.listener c) (r.links B c) .start ∧
      (r.runNoting B s c).unnoted
        = runLinks lift (invoke B s r.listener c) (r.links B c) .start ∧
      ∀ t e, (runStages lift (matchThen B s r c) (listenerStages B c r.before) .start).Runs t e →
        ∃ t', (r.runNoting B s c).Runs t' e ∧ Exchange.unnoted t' = t ∧
          (∃ k, entered (Exchange.notes t') = List.range k) ∧
          (∀ u v, t' = u ++ ⟨.inr (.enter r.handlerPlace), ()⟩ :: v →
            (∀ i < r.handlerPlace, .proceed i ∈ Exchange.notes u) ∧
            (∀ i, .shortCircuit i ∉ Exchange.notes u) ∧
            (∀ i proceeded, .leave i proceeded ∉ Exchange.notes u) ∧
            ∃ u₁ u₂, u = u₁ ++ u₂ ∧ r.Matched B c u₁) ∧
          (∀ u v i seen, t' = u ++ ⟨.inr (.look i seen), ()⟩ :: v →
            (seen.stopped = true ↔ Marked r.matchPlace (Exchange.notes u)) ∧
            (seen.proceeded = true ↔ .proceed i ∈ Exchange.notes u)) ∧
          ∀ f x, e = .ok (f, x) →
            (f.stopped = true ↔ Marked r.matchPlace (Exchange.notes t')) := by
  refine ⟨runStages_matchThen r, unnoted_runNoting r, fun t e hrun => ?_⟩
  rw [runStages_matchThen, ← unnoted_runNoting] at hrun
  obtain ⟨t', hrun', rfl⟩ := Program.exists_runs_of_unnoted hrun
  obtain ⟨hentered, hentering, hlooking⟩ := conducted_of_abides (abides_runNoting r) hrun'
  obtain ⟨-, hend⟩ := (abides_runNoting r).of_runs hrun'
  refine ⟨t', hrun', rfl, hentered, fun u v ht => ?_, hlooking,
    fun f x he => (hend (f, x) he).stopped_iff⟩
  obtain ⟨hopen, hpassed⟩ := hentering u v _ ht
  have hinner : r.matchPlace < r.handlerPlace := by
    unfold ResolvedListener.matchPlace ResolvedListener.handlerPlace
    omega
  obtain ⟨u₁, u₂, hu, hmatched⟩ := hpassed hinner
  exact ⟨hopen.proceeded, hopen.nothingPut, hopen.nobodyLeft, u₁, _, hu, hmatched⟩

/-- Interceptors that proceed and look, or put in a result. -/
def Behaviours.puttingInside : Behaviours Bool Unit where
  filter _ _ := .done true
  matcher _ _ := .done false
  handler _ _ := .done .absent
  listenerInterceptor looks _ :=
    if looks then .call .proceed fun r => .call .state fun _ => .done r
    else .call (.shortCircuit .empty) fun _ => .done (.ok .invalid)
  processingInterceptor _ _ := .call .proceed .done
  onFailure := none

/-- A listener with an interceptor around its match that looks, and one
around its handler that puts in a result. -/
def ResolvedListener.puttingInside : ResolvedListener Bool where
  listener := ⟨.ofInt 1, .any, .normal, .blocking, [true], [], ⟨[], true⟩⟩
  seq := 0
  before := [⟨.ofInt 2, .normal, 0, true⟩]
  after := [⟨.ofInt 3, .normal, 1, false⟩]

/-- The interceptor inside has stopped the chain, as the frame says, and so
the notes say that somebody other than the match has. -/
theorem segments_as_one_chain_puttingInside :
    ∃ t' f x, (ResolvedListener.puttingInside.runNoting .puttingInside .default
        ⟨⟨0, ⟨.any, "", none, none, .null⟩⟩, .ofInt 1, .any, .normal⟩).Runs t' (.ok (f, x)) ∧
      f.stopped = true ∧ Marked 1 (Exchange.notes t') := by
  obtain ⟨-, -, hruns⟩ := segments_as_one_chain .puttingInside .default .puttingInside
    ⟨⟨0, ⟨.any, "", none, none, .null⟩⟩, .ofInt 1, .any, .normal⟩
  obtain ⟨t', hrun', -, -, -, -, hend⟩ :=
    hruns [] (.ok (⟨some .empty, true⟩, .ok .invalid)) (.done _)
  exact ⟨t', _, _, hrun', rfl, (hend _ _ rfl).mp rfl⟩

end Switchboard
