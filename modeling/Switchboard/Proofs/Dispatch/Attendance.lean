import Switchboard.Proofs.Chain.Course
import Switchboard.Proofs.Hub.Service

/-!
# What a dispatch does with its listeners

A dispatch attends to its listeners one after the other. An `Attempt` is
what it does with one of them: the run of the listener's chain, and, if
that came to a failure, the run of the handler of failures. Between two
attempts the dispatch records what came of the first, and nothing else
happens in it. So the exchanges of the loop are those of some attempts,
each followed by the records that its result asks for, and the attempts
are made with the listeners in their order, up to the first that gives a
truncated result or an error (`attendAll_runs`).

Only the records write to a dispatch. The code of listeners, of
interceptors and of the handler of failures has no call that does
(`only_runListener`), nor has what a dispatch does for the sessions that
wait for its event (`only_resumeSessions`). So a dispatch writes to itself
only (`only_afterOffering`).
-/

namespace Switchboard

variable {β σ α : Type}

open HubProgram

/-! ## What each part of a dispatch writes -/

/-- An exchange of supplied code. -/
def ByUser (x : Exchange (hubCalls β σ)) : Prop := x.call.isUser = true

/-- An exchange of a listener: one of supplied code, or one by which its
handler is started. -/
def OfListener (x : Exchange (hubCalls β σ)) : Prop := ByUser x ∨ ∃ job, x.call = .spawn job

/-- An exchange that writes to no dispatch. -/
def Silent (x : Exchange (hubCalls β σ)) : Prop := x.call.target? = none

/-- An exchange that does not write to a dispatch. -/
def SilentTo (i : Nat) (x : Exchange (hubCalls β σ)) : Prop := x.call.target? ≠ some i

/-- What writes to no dispatch does not write to any of them. -/
theorem Silent.to {x : Exchange (hubCalls β σ)} (h : Silent x) (i : Nat) : SilentTo i x := by
  unfold SilentTo
  rw [h]
  exact fun hi => absurd hi (by simp)

theorem ByUser.ofListener {x : Exchange (hubCalls β σ)} (h : ByUser x) : OfListener x := .inl h

/-- A listener writes to no dispatch. -/
theorem OfListener.silent {x : Exchange (hubCalls β σ)} (h : OfListener x) : Silent x := by
  obtain ⟨c, r⟩ := x
  rcases h with h | ⟨job, rfl⟩
  · cases c with
    | user c => rfl
    | _ => exact absurd h Bool.false_ne_true
  · rfl

theorem ByUser.silent {x : Exchange (hubCalls β σ)} (h : ByUser x) : Silent x :=
  h.ofListener.silent

/-- An exchange of a dispatch that attends to its listeners: one of a
listener, or one by which something is written to the dispatch. -/
def OfDispatch (i : Nat) (x : Exchange (hubCalls β σ)) : Prop :=
  OfListener x ∨ x.call.target? = some i

/-- A dispatch does not write to another one. -/
theorem OfDispatch.silentTo {i j : Nat} (hij : j ≠ i) {x : Exchange (hubCalls β σ)}
    (h : OfDispatch j x) : SilentTo i x := by
  rcases h with h | h
  · exact h.silent.to i
  · intro hi
    exact hij (Option.some.inj (h.symm.trans hi))

theorem only_lift (c : UserCall β σ) : (lift c).Only ByUser :=
  Program.only_call (fun _ => rfl) fun _ => Program.only_done _

theorem only_ofUser (p : Program (userCalls β σ) α) : (ofUser p).Only ByUser :=
  Program.only_interpret only_lift p

theorem only_ofRequests (p : Program (requests β σ) α) :
    (ofRequests p).Only ByUser :=
  Program.only_interpret
    (fun _ => Program.only_call (fun _ => rfl) fun _ => Program.only_done _) p

section Writes

variable (B : Behaviours β σ) (s : DispatchSettings)

theorem only_runHandler (job : Job β) : (runHandler B job).Only ByUser := by
  unfold runHandler
  split
  · exact Program.only_done _
  · exact Program.only_bind (only_ofUser _) fun _ => Program.only_done _

theorem only_guardHandler (job : Job β) : (guardHandler B s job).Only ByUser := by
  unfold guardHandler
  split
  · exact Program.only_bind (Program.only_recover (only_runHandler B job))
      fun _ => Program.only_done _
  · exact only_runHandler B job

theorem only_handleFailure (c : ListenerContext) (r : EventResult) :
    (handleFailure B c r).Only ByUser := by
  unfold handleFailure
  split
  · split
    · exact only_ofRequests _
    · exact Program.only_done _
  · exact Program.only_done _

theorem only_acceptedBy (c : ListenerContext) (fs : List β) :
    (acceptedBy B c fs).Only ByUser := by
  induction fs with
  | nil => exact Program.only_done _
  | cons f fs ih =>
    refine Program.only_bind (only_ofRequests _) fun accepts => ?_
    cases accepts with
    | true => exact ih
    | false => exact Program.only_done _

/-- The end of a listener's chain runs its handler, or starts it. -/
theorem only_invoke (l : Listener β) (c : ListenerContext) (f : Frame EventResult) :
    (invoke B s l c f).Only OfListener := by
  unfold invoke
  split
  · exact Program.only_bind ((only_guardHandler B s _).mono fun _ => ByUser.ofListener)
      fun _ => Program.only_done _
  · exact Program.only_call (fun _ => .inr ⟨_, rfl⟩) fun _ => Program.only_done _

theorem only_matchThen (r : ResolvedListener β) (c : ListenerContext) (f : Frame EventResult) :
    (matchThen B s r c f).Only OfListener := by
  refine Program.only_bind ((only_acceptedBy B c _).mono fun _ => ByUser.ofListener)
    fun accepted => ?_
  cases accepted with
  | true =>
    exact only_runStages (fun c => (only_lift c).mono fun _ => ByUser.ofListener)
      (only_invoke B s r.listener c) _ f
  | false => exact Program.only_done _

/-- **A listener makes no calls but those of supplied code**, and one by
which its handler is started. -/
theorem only_runListener (r : ResolvedListener β) (c : ListenerContext) :
    (runListener B s r c).Only OfListener :=
  Program.only_bind
    (only_runStages (fun c => (only_lift c).mono fun _ => ByUser.ofListener)
      (only_matchThen B s r c) _ .start)
    fun _ => Program.only_done _

theorem only_attempt (c : EventContext) (r : ResolvedListener β) :
    (attempt B s c r).Only OfListener := by
  have hguard : (guardListener B s r (r.context c)).Only OfListener := by
    unfold guardListener
    split
    · exact Program.only_bind (Program.only_recover (only_runListener B s r _))
        fun _ => Program.only_done _
    · exact only_runListener B s r _
  refine Program.only_bind hguard fun result => ?_
  cases result with
  | error e => exact Program.only_done _
  | ok result =>
    exact Program.only_bind ((only_handleFailure B _ result).mono fun _ => ByUser.ofListener)
      fun _ => Program.only_done _

/-- Attending to listeners writes to the dispatch that does it. -/
theorem only_attendAll (c : EventContext) (rs : List (ResolvedListener β)) :
    (attendAll B s c rs).Only (OfDispatch c.index) := by
  induction rs with
  | nil => exact Program.only_done _
  | cons r rs ih =>
    refine Program.only_bind ((only_attempt B s c r).mono fun _ => .inl) fun result => ?_
    cases result with
    | error e => exact Program.only_done _
    | ok result =>
      show (if result.isValid then _ else _ : HubProgram β σ _).Only _
      split
      · refine Program.only_call (fun _ => .inr rfl) fun _ => ?_
        split
        · exact Program.only_call (fun _ => .inr rfl) fun _ => Program.only_done _
        · exact ih
      · exact ih

/-- **What a dispatch does after the offering.** -/
def afterOffering (b : Beginning β) : HubProgram β σ (Except DispatchError DispatchResult) :=
  (runChain lift (listenersStage B s b) (processingStages B b.context b.processing)).bind
    fun result => .done (result.map fun (r, stopped) => r.ofChain stopped)

/-- **After the offering, a dispatch attends to its listeners**, whatever
the processing interceptors do. -/
theorem only_afterOffering (b : Beginning β) :
    (afterOffering B s b).Only (OfDispatch b.context.index) := by
  have hlift : ∀ c : UserCall β σ, (lift c).Only (OfDispatch b.context.index) :=
    fun c => (only_lift c).mono fun _ hx => .inl hx.ofListener
  have hstage : (listenersStage B s b).Only (OfDispatch b.context.index) := by
    refine Program.only_bind (only_attendAll B s b.context b.targets) fun ended => ?_
    cases ended with
    | error e => exact Program.only_done _
    | ok u =>
      exact Program.only_bind (hlift (.request (.outcomes b.context)))
        fun _ => Program.only_done _
  refine Program.only_bind (Program.only_bind ?_ fun _ => Program.only_done _)
    fun _ => Program.only_done _
  exact only_runStages hlift
    (fun f => Program.only_bind hstage fun _ => Program.only_done _) _ _

/-- A handler that runs on its own makes no calls but those of supplied
code. -/
theorem only_runJob (job : Job β) : (runJob B s job).Only ByUser :=
  Program.only_bind (only_guardHandler B s job) fun r => only_handleFailure B job.context r

theorem only_offer (c : EventContext) (kept ws : List (Waiter β)) :
    (offer B c kept ws).Only Silent := by
  induction ws generalizing kept with
  | nil => exact Program.only_call (fun _ => rfl) fun _ => Program.only_done _
  | cons w ws ih =>
    have hask : (acceptedByWaiter B c w).Only Silent := by
      unfold acceptedByWaiter
      split
      · exact Program.only_done _
      · exact (only_ofRequests _).mono fun _ => ByUser.silent
    unfold offer
    split
    · exact ih kept
    · refine Program.only_bind (Program.only_recover hask) fun answer => ?_
      match answer with
      | .ok true => exact Program.only_call (fun _ => rfl) fun _ => ih kept
      | .ok false => exact ih (kept ++ [w])
      | .error p => exact Program.only_call (fun _ => rfl) fun _ => Program.only_panic p

/-- Offering an event to sessions writes to no dispatch. -/
theorem only_resumeSessions (c : EventContext) :
    (resumeSessions B c).Only Silent :=
  Program.only_call (fun _ => rfl) fun ws => only_offer B c [] ws

end Writes

/-! ## Attempts -/

/-- The result of a chain that has ended so. A panic that is not caught
leaves none. -/
def DispatchSettings.caught (s : DispatchSettings) :
    Except Payload (Except DispatchError EventResult) →
      Option (Except DispatchError EventResult)
  | .ok r => some r
  | .error p => if s.catchPanics then some (chainFailure (.error p)) else none

/-- **What a dispatch does with one listener.** -/
structure Attempt (β σ : Type) where
  listener : ResolvedListener β
  /-- The exchanges of the listener's chain. -/
  chain : HubTrace β σ
  /-- How the chain ended. -/
  ending : Except Payload (Except DispatchError EventResult)
  /-- The exchanges of the handler of failures. -/
  handling : HubTrace β σ
  /-- The final result. -/
  result : Except DispatchError EventResult

namespace Attempt

variable (B : Behaviours β σ) (s : DispatchSettings) (c : EventContext)

/-- **An attempt is one that can be made**: the chain of its listener runs
to its end, and what the chain came to – a failure, if it ended in a panic
that is caught – is the final result, unless it is a failure and there is
a handler of failures, which then runs and gives the final result. -/
structure Made (a : Attempt β σ) : Prop where
  chain : (runListener B s a.listener (a.listener.context c)).Runs a.chain a.ending
  final : (∃ e, s.caught a.ending = some (.error e) ∧ a.handling = [] ∧ a.result = .error e) ∨
    ∃ r r', s.caught a.ending = some (.ok r) ∧ a.result = .ok r' ∧
      (handleFailure B (a.listener.context c) r).Runs a.handling (.ok r')

/-- The outcome that is recorded after an attempt. -/
def outcome? (a : Attempt β σ) : Option Outcome :=
  match a.result with
  | .ok r => if r.isValid then some ⟨a.listener.listener.id, r⟩ else none
  | .error _ => none

/-- Whether an attempt ends the dispatch for later listeners. -/
def truncates (a : Attempt β σ) : Bool :=
  match a.result with
  | .ok r => r.isTruncated
  | .error _ => false

/-- Whether the next listener is attempted after an attempt. -/
def goesOn (a : Attempt β σ) : Bool :=
  match a.result with
  | .ok r => !r.isTruncated
  | .error _ => false

/-- What is recorded after an attempt. -/
def records (a : Attempt β σ) : HubTrace β σ :=
  (a.outcome?.toList.map fun o => ⟨.record c o, ()⟩) ++
    if a.truncates then [⟨.markTruncated c, ()⟩] else []

/-- All exchanges of an attempt. -/
def trace (a : Attempt β σ) : HubTrace β σ := a.chain ++ a.handling ++ a.records c

end Attempt

section Attempts

variable {B : Behaviours β σ} {s : DispatchSettings} {c : EventContext}

/-- A guarded chain runs as the chain does, and what it came to is caught. -/
theorem guardListener_runs_ok_iff {r : ResolvedListener β} {lc : ListenerContext}
    {t : HubTrace β σ} {x : Except DispatchError EventResult} :
    (guardListener B s r lc).Runs t (.ok x) ↔
      ∃ e, (runListener B s r lc).Runs t e ∧ s.caught e = some x := by
  unfold guardListener DispatchSettings.caught
  cases s.catchPanics with
  | true =>
    simp only [if_true, Program.runs_bind_ok_iff, Program.runs_recover_iff,
      Program.runs_done_iff]
    constructor
    · rintro ⟨e, u, v, rfl, ⟨e', he, hu⟩, rfl, hx⟩
      cases he
      cases hx
      refine ⟨e, by simpa using hu, ?_⟩
      cases e with
      | ok r => rfl
      | error p => rfl
    · rintro ⟨e, ht, hx⟩
      refine ⟨e, t, [], by simp, ⟨e, rfl, ht⟩, rfl, ?_⟩
      cases e with
      | ok r => exact congrArg _ (Option.some.inj hx).symm
      | error p => exact congrArg _ (Option.some.inj hx).symm
  | false =>
    simp only [Bool.false_eq_true, if_false]
    constructor
    · intro ht
      exact ⟨.ok x, ht, rfl⟩
    · rintro ⟨e, ht, hx⟩
      cases e with
      | ok r =>
        obtain rfl := Option.some.inj hx
        exact ht
      | error p => exact absurd hx (by simp)

/-- **A listener runs to a final result** exactly through an attempt. -/
theorem attempt_runs_ok_iff {r : ResolvedListener β} {t : HubTrace β σ}
    {x : Except DispatchError EventResult} :
    (attempt B s c r).Runs t (.ok x) ↔
      ∃ a : Attempt β σ, a.listener = r ∧ a.result = x ∧ a.Made B s c ∧
        t = a.chain ++ a.handling := by
  unfold attempt
  simp only [Program.runs_bind_ok_iff, guardListener_runs_ok_iff]
  constructor
  · rintro ⟨y, u, v, rfl, ⟨e, hu, hy⟩, hv⟩
    cases y with
    | error d =>
      obtain ⟨rfl, hx⟩ := Program.runs_done_iff.mp hv
      cases hx
      exact ⟨⟨r, u, e, [], .error d⟩, rfl, rfl, ⟨hu, .inl ⟨d, hy, rfl, rfl⟩⟩, rfl⟩
    | ok y =>
      obtain ⟨z, v, w, rfl, hh, hw⟩ := Program.runs_bind_ok_iff.mp hv
      obtain ⟨rfl, hx⟩ := Program.runs_done_iff.mp hw
      cases hx
      exact ⟨⟨r, u, e, v, .ok z⟩, rfl, rfl, ⟨hu, .inr ⟨y, z, hy, rfl, hh⟩⟩, by simp⟩
  · rintro ⟨a, rfl, rfl, hm, rfl⟩
    rcases hm.final with ⟨e, he, hh, hr⟩ | ⟨y, z, hy, hr, hh⟩
    · refine ⟨.error e, a.chain, a.handling, rfl, ⟨a.ending, hm.chain, he⟩, ?_⟩
      rw [hh, hr]
      exact .done _
    · refine ⟨.ok y, a.chain, a.handling, rfl, ⟨a.ending, hm.chain, hy⟩, ?_⟩
      rw [hr]
      exact Program.runs_bind_ok_iff.mpr ⟨z, a.handling, [], by simp, hh, .done _⟩

/-- An attempt itself writes to no dispatch. -/
theorem Attempt.Made.silent {a : Attempt β σ} (hm : a.Made B s c) :
    ∀ x ∈ a.chain ++ a.handling, Silent x := by
  intro x hx
  rcases List.mem_append.mp hx with hx | hx
  · exact ((only_runListener B s a.listener _).of_runs hm.chain x hx).silent
  · rcases hm.final with ⟨e, -, hh, -⟩ | ⟨y, z, -, -, hh⟩
    · rw [hh] at hx
      exact absurd hx List.not_mem_nil
    · exact ((only_handleFailure B _ y).of_runs hh x hx).silent

/-- Only a result that is recorded can end a dispatch. -/
theorem isValid_of_isTruncated {r : EventResult} (h : r.isTruncated = true) :
    r.isValid = true := by
  cases r with
  | invalid => exact absurd h Bool.false_ne_true
  | _ => rfl

theorem Attempt.goesOn_of_ok {a : Attempt β σ} {r : EventResult} (h : a.result = .ok r) :
    a.goesOn = !r.isTruncated := by
  unfold Attempt.goesOn
  rw [h]

/-- What a result asks to be recorded. -/
theorem Attempt.records_of_ok {a : Attempt β σ} {r : EventResult} (h : a.result = .ok r) :
    a.records c = if r.isValid then
        ⟨.record c ⟨a.listener.listener.id, r⟩, ()⟩ ::
          if r.isTruncated then [⟨.markTruncated c, ()⟩] else []
      else [] := by
  unfold Attempt.records Attempt.outcome? Attempt.truncates
  rw [h]
  cases hvalid : r.isValid with
  | true => simp [hvalid]
  | false =>
    have htr : r.isTruncated = false := by
      rw [← Bool.not_eq_true]
      exact fun htr => Bool.false_ne_true (hvalid.symm.trans (isValid_of_isTruncated htr))
    simp [hvalid, htr]

/-- An error asks for nothing to be recorded. -/
theorem Attempt.records_of_error {a : Attempt β σ} {e : DispatchError}
    (h : a.result = .error e) : a.records c = [] := by
  unfold Attempt.records Attempt.outcome? Attempt.truncates
  rw [h]
  rfl

/-! ## All attempts -/

/-- **The attempts of a dispatch** that attends to these listeners, through
these exchanges, to this end. -/
structure Attended (B : Behaviours β σ) (s : DispatchSettings) (c : EventContext)
    (targets : List (ResolvedListener β)) (attempts : List (Attempt β σ)) (t : HubTrace β σ)
    (out : Except DispatchError Unit) : Prop where
  made : ∀ a ∈ attempts, a.Made B s c
  /-- The listeners are attempted in their order, each at most once. -/
  in_order : attempts.map (·.listener) <+: targets
  /-- Nothing happens but the attempts, each followed by its records. -/
  exchanges : t = attempts.flatMap (·.trace c)
  /-- Only the last attempt can be one after which the dispatch stops. -/
  goes_on : ∀ a ∈ attempts.dropLast, a.goesOn = true
  /-- If no attempt stops it, all listeners are attempted. -/
  complete : (∀ a ∈ attempts, a.goesOn = true) → attempts.map (·.listener) = targets
  /-- An error of the last attempt is the end. -/
  failed_iff : ∀ e, out = .error e ↔ ∃ a, attempts.getLast? = some a ∧ a.result = .error e

/-- No listeners are attended to by doing nothing. -/
theorem attended_nil : Attended B s c [] [] [] (.ok ()) where
  made := fun a ha => absurd ha List.not_mem_nil
  in_order := List.prefix_refl _
  exchanges := rfl
  goes_on := fun a ha => absurd ha List.not_mem_nil
  complete := fun _ => rfl
  failed_iff := fun e => by simp

variable {a : Attempt β σ} {targets : List (ResolvedListener β)}

/-- A dispatch can stop after an attempt that does not go on. -/
theorem attended_singleton (targets : List (ResolvedListener β)) (hm : a.Made B s c)
    (hstop : a.goesOn = false) :
    Attended B s c (a.listener :: targets) [a] (a.trace c) (a.result.map fun _ => ()) where
  made := fun b hb => by
    rw [List.mem_singleton.mp hb]
    exact hm
  in_order := ⟨targets, rfl⟩
  exchanges := by simp
  goes_on := fun b hb => absurd hb (by simp)
  complete := fun hall =>
    absurd (hstop.symm.trans (hall a List.mem_cons_self)) Bool.false_ne_true
  failed_iff := fun e => by
    cases hr : a.result with
    | error d => simp [Except.map, hr]
    | ok r => simp [Except.map, hr]

/-- After an attempt that goes on, the other listeners are attended to. -/
theorem Attended.cons (hm : a.Made B s c) (hon : a.goesOn = true) {attempts : List (Attempt β σ)}
    {t : HubTrace β σ} {out : Except DispatchError Unit}
    (h : Attended B s c targets attempts t out) :
    Attended B s c (a.listener :: targets) (a :: attempts) (a.trace c ++ t) out where
  made := fun b hb => by
    rcases List.mem_cons.mp hb with rfl | hb
    · exact hm
    · exact h.made b hb
  in_order := by
    rw [List.map_cons]
    exact (List.prefix_cons_inj _).mpr h.in_order
  exchanges := by rw [List.flatMap_cons, ← h.exchanges]
  goes_on := fun b hb => by
    cases attempts with
    | nil => exact absurd hb (by simp)
    | cons a' attempts =>
      rw [List.dropLast_cons_of_ne_nil (List.cons_ne_nil _ _)] at hb
      rcases List.mem_cons.mp hb with rfl | hb
      · exact hon
      · exact h.goes_on b hb
  complete := fun hall => by
    rw [List.map_cons, h.complete fun b hb => hall b (List.mem_cons_of_mem a hb)]
  failed_iff := fun e => by
    rw [h.failed_iff e]
    cases attempts with
    | nil =>
      -- an attempt that goes on has given a result
      have hne : a.result ≠ .error e := fun he => by
        rw [Attempt.goesOn, he] at hon
        exact absurd hon Bool.false_ne_true
      simp [hne]
    | cons a' attempts => rw [List.getLast?_cons_cons]

/-- **Attending to a listener** is an attempt with it. After that the
dispatch stops, or it attends to the other listeners. -/
theorem attendAll_cons_runs {r : ResolvedListener β} {t : HubTrace β σ}
    {e : Except Payload (Except DispatchError Unit)}
    (hrun : (attendAll B s c (r :: targets)).Runs t e) :
    (∃ p, e = .error p ∧ (attempt B s c r).Runs t (.error p)) ∨
      ∃ (a : Attempt β σ) (v : HubTrace β σ), a.listener = r ∧ a.Made B s c ∧
        t = a.trace c ++ v ∧ (a.goesOn = true ∧ (attendAll B s c targets).Runs v e ∨
          a.goesOn = false ∧ v = [] ∧ e = .ok (a.result.map fun _ => ())) := by
  rcases Program.runs_bind_iff.mp hrun with ⟨p, rfl, hp⟩ | ⟨x, u, v, rfl, hu, hv⟩
  · exact .inl ⟨p, rfl, hp⟩
  obtain ⟨a, rfl, rfl, hm, rfl⟩ := attempt_runs_ok_iff.mp hu
  refine .inr ?_
  cases hr : a.result with
  | error d =>
    rw [hr] at hv
    obtain ⟨rfl, rfl⟩ := Program.runs_done_iff.mp hv
    refine ⟨a, [], rfl, hm, ?_, .inr ⟨by rw [Attempt.goesOn, hr], rfl, by rw [hr]; rfl⟩⟩
    rw [Attempt.trace, Attempt.records_of_error hr, List.append_nil, List.append_nil]
  | ok w =>
    rw [hr] at hv
    change Program.Runs (if w.isValid then _ else _) v e at hv
    cases hvalid : w.isValid with
    -- a result that is not recorded cannot end the dispatch
    | false =>
      rw [hvalid, if_neg Bool.false_ne_true] at hv
      have hon : a.goesOn = true := by
        rw [Attempt.goesOn_of_ok hr, Bool.not_eq_true', ← Bool.not_eq_true]
        exact fun htr => Bool.false_ne_true (hvalid.symm.trans (isValid_of_isTruncated htr))
      refine ⟨a, v, rfl, hm, ?_, .inl ⟨hon, hv⟩⟩
      rw [Attempt.trace, Attempt.records_of_ok hr, hvalid, if_neg Bool.false_ne_true,
        List.append_nil]
    | true =>
      rw [hvalid, if_pos rfl] at hv
      obtain ⟨⟨⟩, z, rfl, hz⟩ := Program.runs_call_iff.mp hv
      cases htr : w.isTruncated with
      | false =>
        rw [htr, if_neg Bool.false_ne_true] at hz
        refine ⟨a, z, rfl, hm, ?_, .inl ⟨by rw [Attempt.goesOn_of_ok hr, htr]; rfl, hz⟩⟩
        rw [Attempt.trace, Attempt.records_of_ok hr, hvalid, htr, if_pos rfl,
          if_neg Bool.false_ne_true]
        exact (List.append_assoc (a.chain ++ a.handling) [_] z).symm
      | true =>
        rw [htr, if_pos rfl] at hz
        obtain ⟨⟨⟩, y, rfl, hy⟩ := Program.runs_call_iff.mp hz
        obtain ⟨rfl, rfl⟩ := Program.runs_done_iff.mp hy
        have hstop : a.goesOn = false := by rw [Attempt.goesOn_of_ok hr, htr]; rfl
        refine ⟨a, [], rfl, hm, ?_, .inr ⟨hstop, rfl, by rw [hr]; rfl⟩⟩
        rw [Attempt.trace, Attempt.records_of_ok hr, hvalid, htr, if_pos rfl, if_pos rfl,
          List.append_nil]

/-- **Attending to listeners is making attempts** with them in their order,
up to the first that ends in a truncated result or an error. -/
theorem attendAll_runs {t : HubTrace β σ} {out : Except DispatchError Unit}
    (hrun : (attendAll B s c targets).Runs t (.ok out)) :
    ∃ attempts, Attended B s c targets attempts t out := by
  induction targets generalizing t with
  | nil =>
    obtain ⟨rfl, hd⟩ := Program.runs_done_iff.mp hrun
    cases hd
    exact ⟨[], attended_nil⟩
  | cons r targets ih =>
    rcases attendAll_cons_runs hrun with ⟨p, hp, -⟩ | ⟨a, v, rfl, hm, rfl, hnext⟩
    · exact absurd hp (by simp)
    rcases hnext with ⟨hon, hv⟩ | ⟨hstop, rfl, hend⟩
    · obtain ⟨attempts, h⟩ := ih hv
      exact ⟨a :: attempts, h.cons hm hon⟩
    · obtain rfl := Except.ok.inj hend
      rw [List.append_nil]
      exact ⟨[a], attended_singleton targets hm hstop⟩

end Attempts

end Switchboard
