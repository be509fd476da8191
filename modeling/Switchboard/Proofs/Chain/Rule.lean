import Mathlib.Data.List.Induction
import Switchboard.Proofs.Chain.Links

/-!
# The rule of a chain with a gate

What the links of a chain do to each other is bound by a rule, whatever
their interceptors do and be the end a value or a panic (`LinkNote.rule`).

* A place is entered when all places before it have been entered, in
  order, and have proceeded, and no link has put in a result (`Open`).
* The gate proceeds only after the answer yes.
* A link that looks at the chain is told whether some link has stopped it,
  the gate not counted (`Marked`), and whether it has proceeded itself.

`Within` says where a chain stands while a link is in control, and `Quit`
where it stands once a place has been left; there is one lemma for each
move that leads from one to the other. What carries the induction is that
a link which has not proceeded is the last one that was entered, and that
what was put in by anybody is never taken back: so the rest of the chain
is entered with the frame of a chain that has not been entered, and
everything that was noted so far was noted before.
-/

namespace Switchboard

variable {β σ ρ α : Type}

namespace LinkNote

/-- The place of the link that a note is about. -/
def place : LinkNote → Nat
  | enter i => i
  | shortCircuit i => i
  | proceed i => i
  | look i _ => i
  | leave i _ => i

/-- The places that were entered, in order. -/
def entered (ns : List LinkNote) : List Nat :=
  ns.filterMap fun
    | enter i => some i
    | _ => none

@[simp] theorem entered_nil : entered [] = [] := rfl

@[simp] theorem entered_append (ns ns' : List LinkNote) :
    entered (ns ++ ns') = entered ns ++ entered ns' :=
  List.filterMap_append

@[simp] theorem entered_enter (i : Nat) : entered [enter i] = [i] := rfl

@[simp] theorem entered_shortCircuit (i : Nat) : entered [shortCircuit i] = [] := rfl

@[simp] theorem entered_proceed (i : Nat) : entered [proceed i] = [] := rfl

@[simp] theorem entered_look (i : Nat) (seen : ChainState) : entered [look i seen] = [] := rfl

@[simp] theorem entered_leave (i : Nat) (proceeded : Bool) : entered [leave i proceeded] = [] :=
  rfl

/-- **Some link has stopped the chain**: it has put in a result, or was
left without having proceeded. For the gate, at the place `g`, the latter
does not count. -/
def Marked (g : Nat) (ns : List LinkNote) : Prop :=
  ∃ i, i ≠ g ∧ (shortCircuit i ∈ ns ∨ leave i false ∈ ns)

/-- **A place can be entered**: all places before it were entered in order
and have proceeded, nobody has put in a result, and nobody was left. -/
structure Open (i : Nat) (ns : List LinkNote) : Prop where
  entered : entered ns = List.range i
  before : ∀ n ∈ ns, n.place < i
  proceeded : ∀ j < i, proceed j ∈ ns
  nothingPut : ∀ j, shortCircuit j ∉ ns
  nobodyLeft : ∀ j proceeded, leave j proceeded ∉ ns

variable {S : Signature}

/-- **The rule of a chain** whose gate has the place `g` and proceeds only
where it may. -/
def rule (g : Nat) (MayPass : List (Exchange (S.noting LinkNote)) → Prop)
    (past : List (Exchange (S.noting LinkNote))) : (S.noting LinkNote).Call → Prop
  | .inr (enter i) => Open i (Exchange.notes past)
  | .inr (proceed i) => i = g → MayPass past
  | .inr (look i seen) =>
    (seen.stopped = true ↔ Marked g (Exchange.notes past)) ∧
      (seen.proceeded = true ↔ proceed i ∈ Exchange.notes past)
  | _ => True

/-! ## Where a chain stands -/

/-- The notes while the link at a place is in control; those in `ns₀` were
made before it was entered. -/
structure Within (g i : Nat) (ns₀ : List LinkNote) (f : Frame ρ) (proceeded : Bool)
    (ns : List LinkNote) : Prop where
  grows : ns₀ <+: ns
  stopped_iff : f.stopped = true ↔ Marked g ns
  proceeded_iff : proceeded = true ↔ proceed i ∈ ns
  entered : ∃ k, i < k ∧ entered ns = List.range k
  /-- A link that has not proceeded is the last one there is. -/
  last : proceeded = false → LinkNote.entered ns = List.range (i + 1) ∧
    (∀ n ∈ ns, n.place ≤ i) ∧ (∀ j < i, proceed j ∈ ns) ∧
    (∀ j proceeded, leave j proceeded ∉ ns) ∧
    (f.substitute = none → ∀ j, shortCircuit j ∉ ns)

/-- The notes once a place has been left. -/
structure Quit (g i : Nat) (ns₀ : List LinkNote) (f : Frame ρ) (ns : List LinkNote) : Prop where
  grows : ns₀ <+: ns
  stopped_iff : f.stopped = true ↔ Marked g ns
  entered : ∃ k, i < k ∧ entered ns = List.range k

variable {g i : Nat} {ns ns₀ ns' : List LinkNote} {f f' : Frame ρ} {proceeded : Bool}

/-- Nobody has stopped a chain whose next place can be entered. -/
theorem Open.not_marked (h : Open i ns) : ¬ Marked g ns := by
  rintro ⟨j, -, hj | hj⟩
  · exact h.nothingPut j hj
  · exact h.nobodyLeft j false hj

/-- The first place can be entered. -/
theorem open_nil : Open 0 [] where
  entered := rfl
  before := fun _ hn => absurd hn List.not_mem_nil
  proceeded := fun _ hj => absurd hj (Nat.not_lt_zero _)
  nothingPut := fun _ => List.not_mem_nil
  nobodyLeft := fun _ _ => List.not_mem_nil

/-- A note that stops nothing leaves the marks as they are. -/
theorem marked_append_singleton {n : LinkNote} (hput : ∀ j, j ≠ g → n ≠ shortCircuit j)
    (hleft : ∀ j, j ≠ g → n ≠ leave j false) : Marked g (ns ++ [n]) ↔ Marked g ns := by
  unfold Marked
  refine exists_congr fun j => and_congr_right fun hj => ?_
  rw [List.mem_append, List.mem_append, List.mem_singleton, List.mem_singleton,
    or_iff_left (hput j hj).symm, or_iff_left (hleft j hj).symm]

/-- A place that can be entered is entered. -/
theorem Open.enter (h : Open i ns) :
    Within g i ns (Frame.start : Frame ρ) false (ns ++ [.enter i]) where
  grows := List.prefix_append _ _
  stopped_iff := by
    rw [marked_append_singleton (by simp) (by simp)]
    exact ⟨fun hf => absurd hf (by simp [Frame.start]), fun hm => absurd hm h.not_marked⟩
  proceeded_iff := by
    have hnot : proceed i ∉ ns ++ [.enter i] := by
      simpa using fun hmem => Nat.lt_irrefl i (h.before (.proceed i) hmem)
    exact ⟨fun hp => absurd hp Bool.false_ne_true, fun hmem => absurd hmem hnot⟩
  entered := ⟨i + 1, Nat.lt_succ_self i, by
    rw [entered_append, h.entered, List.range_succ, entered_enter]⟩
  last := fun _ => by
    refine ⟨?_, fun n hn => ?_, fun j hj => ?_, fun j p => ?_, fun _ j => ?_⟩
    · rw [entered_append, h.entered, List.range_succ, entered_enter]
    · rcases List.mem_append.mp hn with hn | hn
      · exact Nat.le_of_lt (h.before n hn)
      · rw [List.mem_singleton.mp hn]
        exact Nat.le_refl i
    · exact List.mem_append_left _ (h.proceeded j hj)
    · simpa using h.nobodyLeft j p
    · simpa using h.nothingPut j

/-- A note that enters no place leaves the entered places in order. -/
theorem Within.entered_append (h : Within g i ns₀ f proceeded ns) {n : LinkNote}
    (hn : LinkNote.entered [n] = []) :
    ∃ k, i < k ∧ LinkNote.entered (ns ++ [n]) = List.range k := by
  rw [LinkNote.entered_append, hn, List.append_nil]
  exact h.entered

/-- A link that has not proceeded is the last one there is, also after a
note about itself, unless it is left. -/
theorem Within.last_append (h : Within g i ns₀ f false ns) {n : LinkNote} (hplace : n.place = i)
    (hn : LinkNote.entered [n] = []) (hleave : ∀ j proceeded, n ≠ leave j proceeded) :
    LinkNote.entered (ns ++ [n]) = List.range (i + 1) ∧ (∀ n' ∈ ns ++ [n], n'.place ≤ i) ∧
      (∀ j < i, LinkNote.proceed j ∈ ns ++ [n]) ∧ ∀ j proceeded, leave j proceeded ∉ ns ++ [n] := by
  obtain ⟨hent, hplaces, hproc, hleft, -⟩ := h.last rfl
  refine ⟨?_, fun n' hn' => ?_, fun j hj => List.mem_append_left _ (hproc j hj), fun j p hmem => ?_⟩
  · rw [LinkNote.entered_append, hn, List.append_nil]
    exact hent
  · rcases List.mem_append.mp hn' with hn' | hn'
    · exact hplaces n' hn'
    · rw [List.mem_singleton.mp hn']
      exact Nat.le_of_eq hplace
  · rcases List.mem_append.mp hmem with hmem | hmem
    · exact hleft j p hmem
    · exact hleave j p (List.mem_singleton.mp hmem).symm

/-- A link that looks at its chain stays in control. -/
theorem Within.look (h : Within g i ns₀ f proceeded ns) (seen : ChainState) :
    Within g i ns₀ f proceeded (ns ++ [.look i seen]) where
  grows := h.grows.trans (List.prefix_append _ _)
  stopped_iff := h.stopped_iff.trans (marked_append_singleton (by simp) (by simp)).symm
  proceeded_iff := by
    rw [h.proceeded_iff]
    simp
  entered := h.entered_append (entered_look i seen)
  last := fun hp => by
    subst hp
    obtain ⟨hent, hplaces, hproc, hleft⟩ := h.last_append rfl (entered_look i seen) (by simp)
    obtain ⟨-, -, -, -, hput⟩ := h.last rfl
    exact ⟨hent, hplaces, hproc, hleft, fun hf j => by simpa using hput hf j⟩

/-- A link other than the gate can put in a result. -/
theorem Within.shortCircuit (h : Within g i ns₀ f proceeded ns) (hi : i ≠ g) (r : ρ) :
    Within g i ns₀ (f.shortCircuit r) proceeded (ns ++ [.shortCircuit i]) where
  grows := h.grows.trans (List.prefix_append _ _)
  stopped_iff := ⟨fun _ => ⟨i, hi, .inl (List.mem_append_right _ (List.mem_singleton_self _))⟩,
    fun _ => rfl⟩
  proceeded_iff := by
    rw [h.proceeded_iff]
    simp
  entered := h.entered_append (entered_shortCircuit i)
  last := fun hp => by
    subst hp
    obtain ⟨hent, hplaces, hproc, hleft⟩ := h.last_append rfl (entered_shortCircuit i) (by simp)
    exact ⟨hent, hplaces, hproc, hleft, fun hf => absurd hf (by simp [Frame.shortCircuit])⟩

/-- A link that proceeds and does not enter the rest stays in control. -/
theorem Within.proceed (h : Within g i ns₀ f proceeded ns) :
    Within g i ns₀ f true (ns ++ [.proceed i]) where
  grows := h.grows.trans (List.prefix_append _ _)
  stopped_iff := h.stopped_iff.trans (marked_append_singleton (by simp) (by simp)).symm
  proceeded_iff :=
    ⟨fun _ => List.mem_append_right _ (List.mem_singleton_self _), fun _ => rfl⟩
  entered := h.entered_append (entered_proceed i)
  last := fun hp => absurd hp (by simp)

/-- A link that proceeds for the first time, with nothing put in, finds the
frame of a chain that has not been entered. -/
theorem Within.eq_start (h : Within g i ns₀ f false ns) (hf : f.substitute = none) :
    f = .start := by
  obtain ⟨-, -, -, hleft, hput⟩ := h.last rfl
  have hstopped : f.stopped = false := by
    rw [← Bool.not_eq_true, h.stopped_iff]
    rintro ⟨j, -, hj | hj⟩
    · exact hput hf j hj
    · exact hleft j false hj
  cases f with
  | mk substitute stopped =>
    obtain rfl : substitute = none := hf
    obtain rfl : stopped = false := hstopped
    rfl

/-- **The next place can be entered then.** -/
theorem Within.open (h : Within g i ns₀ f false ns) (hf : f.substitute = none) :
    Open (i + 1) (ns ++ [.proceed i]) := by
  obtain ⟨hent, hplaces, hproc, hleft⟩ := h.last_append rfl (entered_proceed i) (by simp)
  obtain ⟨-, -, -, -, hput⟩ := h.last rfl
  refine ⟨hent, fun n hn => Nat.lt_succ_of_le (hplaces n hn), fun j hj => ?_, fun j => ?_, hleft⟩
  · rcases Nat.lt_succ_iff_lt_or_eq.mp hj with hj | rfl
    · exact hproc j hj
    · exact List.mem_append_right _ (List.mem_singleton_self _)
  · simpa using hput hf j

/-- The link is in control again once the next place has been left. -/
theorem Within.back (h : Within g i ns₀ f false ns)
    (hq : Quit g (i + 1) (ns ++ [.proceed i]) f' ns') : Within g i ns₀ f' true ns' where
  grows := (h.grows.trans (List.prefix_append _ _)).trans hq.grows
  stopped_iff := hq.stopped_iff
  proceeded_iff := ⟨fun _ => hq.grows.subset
    (List.mem_append_right _ (List.mem_singleton_self _)), fun _ => rfl⟩
  entered := by
    obtain ⟨k, hk, hent⟩ := hq.entered
    exact ⟨k, Nat.lt_of_succ_lt hk, hent⟩
  last := fun hp => absurd hp (by simp)

/-- **A link is left.** It stops the chain if it has not proceeded, unless
it is the gate. -/
theorem Within.leave (h : Within g i ns₀ f proceeded ns) {stops : Bool}
    (hstops : stops = true ↔ i ≠ g) :
    Quit g i ns₀ (f.leave (proceeded || !stops)) (ns ++ [.leave i proceeded]) where
  grows := h.grows.trans (List.prefix_append _ _)
  entered := h.entered_append (entered_leave i proceeded)
  stopped_iff := by
    by_cases hgo : proceeded = true ∨ stops = false
    · have hkeep : f.leave (proceeded || !stops) = f := by
        rcases hgo with rfl | rfl
        · exact f.leave_true
        · rw [Bool.not_false, Bool.or_true]
          exact f.leave_true
      rw [hkeep, h.stopped_iff, marked_append_singleton (by simp)]
      intro j hj heq
      obtain ⟨rfl, rfl⟩ := LinkNote.leave.inj heq
      have hstopping : stops = true := hstops.mpr hj
      rcases hgo with hp | hs
      · exact Bool.false_ne_true hp
      · exact Bool.false_ne_true (hs.symm.trans hstopping)
    · obtain ⟨hp, hs⟩ := not_or.mp hgo
      have hproceeded : proceeded = false := Bool.eq_false_iff.mpr hp
      have hstopping : stops = true := (Bool.not_eq_false stops).mp hs
      subst hproceeded hstopping
      refine ⟨fun _ => ⟨i, hstops.mp rfl, .inr ?_⟩, fun _ => ?_⟩
      · exact List.mem_append_right _ (List.mem_singleton_self _)
      · show (f.stopped || true) = true
        exact Bool.or_true _

end LinkNote

/-! ## All links abide by the rule -/

open LinkNote

variable {S : Signature} {lift : (c : UserCall β σ) → Program S c.Reply} {g : Nat}
  {MayPass : List (Exchange (S.noting LinkNote)) → Prop}

/-- **A part of a chain abides by the rule** from a place on: wherever the
place can be entered, it is entered and left according to the rule. -/
def AbidesFrom (g : Nat) (MayPass : List (Exchange (S.noting LinkNote)) → Prop) (i : Nat)
    (rest : Frame ρ → Program (S.noting LinkNote) (Frame ρ × Except DispatchError ρ)) : Prop :=
  ∀ past, Open i (Exchange.notes past) →
    (rest .start).Abides (rule g MayPass)
      (fun past' x => Quit g i (Exchange.notes past) x.1 (Exchange.notes past')) past

/-- A note is the last of the notes once it is made. -/
theorem notes_append_note (past : List (Exchange (S.noting LinkNote))) (n : LinkNote)
    (r : (S.noting LinkNote).Reply (.inr n)) :
    Exchange.notes (past ++ [⟨.inr n, r⟩]) = Exchange.notes past ++ [n] := by
  rw [Exchange.notes_append, Exchange.notes_note]

theorem notes_append_quiet (past : List (Exchange (S.noting LinkNote))) (t : List (Exchange S)) :
    Exchange.notes (past ++ t.map .quiet) = Exchange.notes past := by
  rw [Exchange.notes_append, Exchange.notes_quiet, List.append_nil]

/-- What the user is asked for is not noted, and everything stands as it
stood. -/
theorem abides_quietly_of {γ : Type} {P : List LinkNote → Prop}
    {past : List (Exchange (S.noting LinkNote))} (h : P (Exchange.notes past)) (m : Program S γ) :
    m.quietly.Abides (rule g MayPass) (fun past' _ => P (Exchange.notes past')) past :=
  Program.abides_quietly (fun _ _ => trivial) fun t _ _ => by
    rw [notes_append_quiet]
    exact h

section Stages

variable {owner : Id} {i : Nat} {ns₀ : List LinkNote}
  {rest : Frame ρ → Program (S.noting LinkNote) (Frame ρ × Except DispatchError ρ)}

/-- **An interceptor that is not the gate** stays in control or leads
through the rest of its chain and back. -/
theorem abides_driveNoting (hi : i ≠ g) (hrest : AbidesFrom g MayPass (i + 1) rest)
    (p : Program (chainCalls β σ ρ) α) {f : Frame ρ} {proceeded : Bool}
    {past : List (Exchange (S.noting LinkNote))}
    (h : Within g i ns₀ f proceeded (Exchange.notes past)) :
    (p.driveNoting lift owner i rest f proceeded).Abides (rule g MayPass)
      (fun past' x => Within g i ns₀ x.1 x.2.1 (Exchange.notes past')) past := by
  induction p generalizing f proceeded past with
  | done a => exact h
  | panic p => trivial
  | call c next ih =>
    cases c with
    | user c =>
      refine Program.abides_bind (abides_quietly_of h _) fun past' r hr => ?_
      exact ih r hr
    | proceed =>
      cases proceeded with
      | true =>
        refine ⟨fun hg => absurd hg hi, fun r => ih _ ?_⟩
        rw [notes_append_note]
        exact h.proceed
      | false =>
        unfold Program.driveNoting
        refine ⟨fun hg => absurd hg hi, fun r => ?_⟩
        cases hf : f.substitute with
        | some x =>
          refine ih _ ?_
          rw [notes_append_note]
          exact h.proceed
        | none =>
          have hopen := h.open hf
          rw [← notes_append_note past _ r] at hopen
          obtain rfl := h.eq_start hf
          refine Program.abides_bind (hrest _ hopen) fun past' x hq => ih _ ?_
          rw [notes_append_note] at hq
          exact h.back hq
    | shortCircuit x =>
      refine ⟨trivial, fun r => ih () ?_⟩
      rw [notes_append_note]
      exact h.shortCircuit hi x
    | state =>
      refine ⟨⟨h.stopped_iff, h.proceeded_iff⟩, fun r => ih _ ?_⟩
      rw [notes_append_note]
      exact h.look _

/-- A place that can be entered is entered, and its link is in control. -/
theorem within_of_open {past : List (Exchange (S.noting LinkNote))}
    (h : Open i (Exchange.notes past)) (r : (S.noting LinkNote).Reply (.inr (.enter i))) :
    Within g i (Exchange.notes past) (.start : Frame ρ) false
      (Exchange.notes (past ++ [⟨.inr (.enter i), r⟩])) := by
  rw [notes_append_note]
  exact h.enter

/-- A link in control is left as the rule says. -/
theorem abides_leave {f : Frame ρ} {proceeded : Bool} {past : List (Exchange (S.noting LinkNote))}
    (h : Within g i ns₀ f proceeded (Exchange.notes past)) {stops : Bool}
    (hstops : stops = true ↔ i ≠ g) (x : Except DispatchError ρ) :
    (Program.noting (.leave i proceeded) (.done (f.leave (proceeded || !stops), x)) :
        Program (S.noting LinkNote) (Frame ρ × Except DispatchError ρ)).Abides (rule g MayPass)
      (fun past' x => Quit g i ns₀ x.1 (Exchange.notes past')) past := by
  refine ⟨trivial, fun r => ?_⟩
  show Quit _ _ _ _ (Exchange.notes _)
  rw [notes_append_note]
  exact h.leave hstops

/-- **Links that are not the gate** abide by the rule if what they wrap does. -/
theorem abidesFrom_links {terminal : Frame ρ →
      Program (S.noting LinkNote) (Frame ρ × Except DispatchError ρ)}
    {links : List (Link β σ ρ)} (hstops : ∀ l ∈ links, l.stops = true)
    (hi : g < i ∨ i + links.length ≤ g)
    (hterminal : AbidesFrom g MayPass (i + links.length) terminal) :
    AbidesFrom g MayPass i (runLinksNoting lift terminal i links) := by
  induction links generalizing i with
  | nil => exact hterminal
  | cons l links ih =>
    rw [List.length_cons] at hi hterminal
    have hne : i ≠ g := by omega
    have hrest := ih (i := i + 1) (fun l' hl' => hstops l' (List.mem_cons_of_mem l hl'))
      (by omega) (by rwa [Nat.add_right_comm])
    intro past hopen
    refine ⟨hopen, fun r => ?_⟩
    refine Program.abides_bind (abides_driveNoting hne hrest _ (within_of_open hopen r))
      fun past' x hx => ?_
    exact abides_leave hx (iff_of_true (hstops l List.mem_cons_self) hne) x.2.2

end Stages

/-- A gate asks its question before it does anything. -/
theorem driveNoting_ofUser_bind {γ : Type} {owner : Id} {i : Nat}
    {rest : Frame ρ → Program (S.noting LinkNote) (Frame ρ × Except DispatchError ρ)}
    (p : Program (userCalls β σ) γ) (k : γ → Program (chainCalls β σ ρ) α) (f : Frame ρ)
    (proceeded : Bool) :
    (p.ofUser.bind k).driveNoting lift owner i rest f proceeded
      = (p.interpret lift).quietly.bind fun a =>
          (k a).driveNoting lift owner i rest f proceeded := by
  induction p with
  | done a => rfl
  | panic q => rfl
  | call c next ih =>
    show (lift c).quietly.bind _ = ((lift c).bind _).quietly.bind _
    unfold Program.quietly
    rw [Program.interpret_bind, Program.bind_assoc]
    exact congrArg _ (funext ih)

/-- **A gate abides by the rule** if it may pass once its question is
answered with yes, and what it wraps abides by the rule. -/
theorem abidesFrom_gate {terminal : Frame ρ →
      Program (S.noting LinkNote) (Frame ρ × Except DispatchError ρ)}
    (owner : Id) (question : Program (userCalls β σ) Bool) (refusal : Except DispatchError ρ)
    {links : List (Link β σ ρ)}
    (hpass : ∀ past t, (question.interpret lift).Runs t (.ok true) →
      MayPass (past ++ t.map .quiet))
    (hrest : AbidesFrom g MayPass (g + 1) (runLinksNoting lift terminal (g + 1) links)) :
    AbidesFrom g MayPass g
      (runLinksNoting lift terminal g (.gate owner question refusal :: links)) := by
  intro past hopen
  refine ⟨hopen, fun r => ?_⟩
  have hasked : (question.interpret lift).quietly.Abides (rule g MayPass)
      (fun past' answer =>
        Within g g (Exchange.notes past) (.start : Frame ρ) false (Exchange.notes past') ∧
          (answer = true → MayPass past'))
      (past ++ [⟨.inr (.enter g), r⟩]) := by
    refine Program.abides_quietly (fun _ _ => trivial) fun t answer ht => ⟨?_, fun hyes => ?_⟩
    · rw [notes_append_quiet]
      exact within_of_open hopen r
    · exact hpass _ t (hyes ▸ ht)
  unfold Link.gate
  dsimp only
  rw [driveNoting_ofUser_bind, Program.bind_assoc]
  refine Program.abides_bind hasked ?_
  · rintro past' answer ⟨hin, hmay⟩
    cases answer with
    | false => exact abides_leave hin (by simp) refusal
    | true =>
      refine ⟨fun _ => hmay rfl, fun r => ?_⟩
      have hnext := hin.open rfl
      rw [← notes_append_note past' _ r] at hnext
      show (Program.bind (Program.bind _ _) _).Abides _ _ _
      rw [Program.bind_assoc]
      refine Program.abides_bind (hrest _ hnext) fun past'' x hq => ?_
      rw [notes_append_note] at hq
      exact abides_leave (hin.back hq) (by simp) x.2

/-- A terminal that leaves the frame as it is abides by the rule. -/
theorem abidesFrom_terminal {terminal : Frame ρ → Program S (Frame ρ × Except DispatchError ρ)}
    {i : Nat} (hkeeps : ∀ f t x, (terminal f).Runs t (.ok x) → x.1 = f) :
    AbidesFrom g MayPass i (terminalNoting terminal i) := by
  intro past hopen
  refine ⟨hopen, fun r => Program.abides_quietly (fun _ _ => trivial) fun t x hx => ?_⟩
  have hin : Within g i (Exchange.notes past) (Frame.start : Frame ρ) false _ := hopen.enter
  rw [notes_append_quiet, notes_append_note, hkeeps _ t x hx]
  exact ⟨hin.grows, hin.stopped_iff, hin.entered⟩

/-- **A chain of stages with a gate between abides by the rule.** -/
theorem abides_runLinksNoting {terminal : Frame ρ → Program S (Frame ρ × Except DispatchError ρ)}
    (hkeeps : ∀ f t x, (terminal f).Runs t (.ok x) → x.1 = f)
    (owner : Id) (question : Program (userCalls β σ) Bool) (refusal : Except DispatchError ρ)
    (outer inner : List (Stage β σ ρ))
    (hpass : ∀ past t, (question.interpret lift).Runs t (.ok true) →
      MayPass (past ++ t.map .quiet)) :
    (runLinksNoting lift (terminalNoting terminal (outer.length + 1 + inner.length)) 0
        (outer.map (·.link) ++ .gate owner question refusal :: inner.map (·.link)) .start).Abides
      (rule outer.length MayPass)
      (fun past x => Quit outer.length 0 [] x.1 (Exchange.notes past)) [] := by
  have hlinks : ∀ stages : List (Stage β σ ρ), ∀ l ∈ stages.map (·.link), l.stops = true := by
    intro stages l hl
    obtain ⟨s, -, rfl⟩ := List.mem_map.mp hl
    rfl
  have hinner : AbidesFrom outer.length MayPass (outer.length + 1)
      (runLinksNoting lift (terminalNoting terminal (outer.length + 1 + inner.length))
        (outer.length + 1) (inner.map (·.link))) := by
    refine abidesFrom_links (hlinks inner) (.inl (Nat.lt_succ_self _)) ?_
    rw [List.length_map]
    exact abidesFrom_terminal hkeeps
  rw [runLinksNoting_append, List.length_map, Nat.zero_add]
  refine abidesFrom_links (hlinks outer) (.inr ?_) ?_ [] open_nil
  · exact Nat.le_of_eq (by rw [List.length_map, Nat.zero_add])
  · rw [List.length_map, Nat.zero_add]
    exact abidesFrom_gate owner question refusal hpass hinner

/-! ## What notes tell of a run -/

/-- **A run of a chain that abides by the rule**, be its end a value or a
panic: places are entered in order and at most once, each where it can be,
and those past the gate after the gate may pass; and who looks is told
whether somebody has stopped the chain. -/
structure Conducted (g : Nat) (MayPass : List (Exchange (S.noting LinkNote)) → Prop)
    (t : List (Exchange (S.noting LinkNote))) : Prop where
  inOrder : ∃ k, entered (Exchange.notes t) = List.range k
  entering : ∀ u v i, t = u ++ ⟨.inr (.enter i), ()⟩ :: v →
    Open i (Exchange.notes u) ∧
      (g < i → ∃ u₁ u₂, u = u₁ ++ ⟨.inr (.proceed g), ()⟩ :: u₂ ∧ MayPass u₁)
  looking : ∀ u v i seen, t = u ++ ⟨.inr (.look i seen), ()⟩ :: v →
    (seen.stopped = true ↔ Marked g (Exchange.notes u)) ∧
      (seen.proceeded = true ↔ proceed i ∈ Exchange.notes u)

/-- Places that are entered only when they can be are entered in order. -/
theorem entered_eq_range {t : List (Exchange (S.noting LinkNote))}
    (h : ∀ u v i, t = u ++ ⟨.inr (.enter i), ()⟩ :: v → Open i (Exchange.notes u)) :
    ∃ k, entered (Exchange.notes t) = List.range k := by
  induction t using List.reverseRecOn with
  | nil => exact ⟨0, rfl⟩
  | append_singleton t x ih =>
    obtain ⟨k, hk⟩ := ih fun u v i ht => h u (v ++ [x]) i (by rw [ht, List.append_assoc]; rfl)
    rw [Exchange.notes_append, entered_append]
    obtain ⟨c | n, r⟩ := x
    · exact ⟨k, by rw [hk]; exact List.append_nil _⟩
    · cases n with
      | enter i =>
        refine ⟨i + 1, ?_⟩
        rw [(h t [] i rfl).entered, List.range_succ]
        rfl
      | shortCircuit i => exact ⟨k, by rw [hk]; exact List.append_nil _⟩
      | proceed i => exact ⟨k, by rw [hk]; exact List.append_nil _⟩
      | look i seen => exact ⟨k, by rw [hk]; exact List.append_nil _⟩
      | leave i proceeded => exact ⟨k, by rw [hk]; exact List.append_nil _⟩

/-- **Every run of a program that abides by the rule is conducted by it.** -/
theorem conducted_of_abides {Q : List (Exchange (S.noting LinkNote)) → α → Prop}
    {m : Program (S.noting LinkNote) α} (h : m.Abides (rule g MayPass) Q [])
    {t : List (Exchange (S.noting LinkNote))} {e : Except Payload α} (hrun : m.Runs t e) :
    Conducted g MayPass t := by
  obtain ⟨hcalls, -⟩ := h.of_runs hrun
  have hopen : ∀ u v i, t = u ++ ⟨.inr (.enter i), ()⟩ :: v → Open i (Exchange.notes u) :=
    fun u v i ht => hcalls u _ v ht
  refine ⟨entered_eq_range hopen, fun u v i ht => ⟨hopen u v i ht, fun hg => ?_⟩,
    fun u v i seen ht => hcalls u _ v ht⟩
  -- the gate has proceeded by then, where it was allowed to
  obtain ⟨u₁, u₂, rfl⟩ := Exchange.mem_notes_iff.mp ((hopen u v i ht).proceeded g hg)
  refine ⟨u₁, u₂, rfl, hcalls u₁ ⟨.inr (.proceed g), ()⟩ (u₂ ++ ⟨.inr (.enter i), ()⟩ :: v) ?_ rfl⟩
  rw [ht, List.append_assoc]
  rfl

end Switchboard
