import Switchboard.Proofs.Chain.History

/-!
# The course of a chain

A history of a chain is not any list of moves. `Follows` says which move
can come directly after which, given all moves before the two:

* a stage that proceeds for the first time is told the last result it has
  put in itself, if there is one, and enters the next place otherwise;
* a stage that proceeds again is told so, whatever has happened;
* the result with which a place is left is the reply to the stage before;
* else the stage that is in control acts.

The history of every run follows this relation from move to move
(`Course`), whatever the interceptors do. The induction is on the stages,
and within one on the program of its interceptor. What carries it is that
the first time a place is reached the frame is as it was at the start: no
stage outside has left, and none has put in a result, for then it would
not have entered the next place. So the frame's substitute belongs to the
stage that looks at it, and the frame's mark to the stages seen so far.
-/

namespace Switchboard

variable {β σ ρ α : Type}

namespace ChainHistory

/-- **Which move comes directly after which**, given the moves before. -/
inductive Follows (owners : List Id) (past : ChainHistory ρ) :
    ChainMove ρ → ChainMove ρ → Prop
  /-- The first time a stage proceeds, the next place is entered. -/
  | onward {i : Nat} : .proceed i ∉ past → past.substitutes i = [] →
      Follows owners past (.proceed i) (.enter (i + 1))
  /-- The first time, after the stage has put in a result. -/
  | substituted {i : Nat} {r : ρ} : .proceed i ∉ past →
      (past.substitutes i).getLast? = some r →
      Follows owners past (.proceed i) (.reply i (.ok r))
  /-- Every other time. -/
  | again {i : Nat} {owner : Id} : .proceed i ∈ past → owners[i]? = some owner →
      Follows owners past (.proceed i) (.reply i (.error (.doubleProceed owner)))
  | returned {i : Nat} {r : Except DispatchError ρ} :
      Follows owners past (.leave (i + 1) r) (.reply i r)
  | acts {a b : ChainMove ρ} : a.givesControl = true → b.isAct = true → b.place = a.place →
      Follows owners past a b

/-- **Every move follows the one before it.** -/
def Course (owners : List Id) (h : ChainHistory ρ) : Prop :=
  ∀ past a b later, h = past ++ a :: b :: later → Follows owners past a b

variable {owners : List Id} {h : ChainHistory ρ}

theorem course_nil : Course owners ([] : ChainHistory ρ) := by
  intro past a b later hn
  exact absurd hn (by simp)

/-- A course goes on with a move that follows its last one. -/
theorem Course.append_singleton (hc : Course owners h) {b : ChainMove ρ}
    (hb : ∀ past a, h = past ++ [a] → Follows owners past a b) : Course owners (h ++ [b]) := by
  intro past a c later hh
  rcases List.eq_nil_or_concat later with rfl | ⟨later, d, rfl⟩
  · have hinj : h ++ [b] = (past ++ [a]) ++ [c] := by simpa using hh
    obtain ⟨hpast, hbc⟩ := List.append_inj' hinj rfl
    rw [← List.singleton_inj.mp hbc]
    exact hb past a hpast
  · have hinj : h ++ [b] = (past ++ a :: c :: later) ++ [d] := by simpa using hh
    exact hc past a c later (List.append_inj' hinj rfl).1

theorem Course.follow {past : ChainHistory ρ} {a b : ChainMove ρ}
    (hc : Course owners (past ++ [a])) (hb : Follows owners past a b) :
    Course owners ((past ++ [a]) ++ [b]) := by
  refine hc.append_singleton fun past' a' hh => ?_
  obtain ⟨rfl, ha⟩ := List.append_inj' hh rfl
  rw [← List.singleton_inj.mp ha]
  exact hb

/-! ## Who has stopped a chain -/

/-- A stage has stopped the chain: it was entered, and it has put in a
result or has left without ever having proceeded. -/
def StoppedBy (h : ChainHistory ρ) (i : Nat) : Prop :=
  .enter i ∈ h ∧ ((∃ r, .shortCircuit i r ∈ h) ∨ (∃ r, .leave i r ∈ h) ∧ .proceed i ∉ h)

/-- Some stage has stopped the chain. The terminal never does. -/
def Stopped (owners : List Id) (h : ChainHistory ρ) : Prop :=
  ∃ i < owners.length, h.StoppedBy i

/-- A move that is not about a stage does not make it stop the chain. -/
theorem stoppedBy_append_of_place_ne {new : ChainHistory ρ} {i : Nat}
    (hnew : ∀ m ∈ new, m.place ≠ i) : (h ++ new).StoppedBy i ↔ h.StoppedBy i := by
  have key : ∀ m : ChainMove ρ, m.place = i → (m ∈ h ++ new ↔ m ∈ h) := by
    intro m hm
    rw [List.mem_append]
    exact or_iff_left fun hmem => hnew m hmem hm
  unfold StoppedBy
  simp only [key (.enter i) rfl, key (.proceed i) rfl, key (.shortCircuit i _) rfl,
    key (.leave i _) rfl]

theorem stoppedBy_append_singleton_of_place_ne {m : ChainMove ρ} {i : Nat} (hm : m.place ≠ i) :
    (h ++ [m]).StoppedBy i ↔ h.StoppedBy i :=
  stoppedBy_append_of_place_ne fun x hx => by
    rw [List.mem_singleton.mp hx]
    exact hm

/-- A reply does not make anybody stop the chain. -/
theorem stoppedBy_append_reply {i j : Nat} {r : Except DispatchError ρ} :
    (h ++ [ChainMove.reply i r]).StoppedBy j ↔ h.StoppedBy j := by
  unfold StoppedBy
  simp

theorem stopped_append_reply {i : Nat} {r : Except DispatchError ρ} :
    Stopped owners (h ++ [.reply i r]) ↔ Stopped owners h := by
  unfold Stopped
  simp only [stoppedBy_append_reply]

/-- A stage that has not left does not stop the chain by proceeding. -/
theorem stopped_append_proceed {i : Nat} (hl : ∀ r, .leave i r ∉ h) :
    Stopped owners (h ++ [.proceed i]) ↔ Stopped owners h := by
  have key : ∀ j, (h ++ [ChainMove.proceed i]).StoppedBy j ↔ h.StoppedBy j := by
    intro j
    by_cases hj : i = j
    · subst hj
      unfold StoppedBy
      simp [hl]
    · exact stoppedBy_append_singleton_of_place_ne hj
  unfold Stopped
  simp only [key]

/-! ## Where a chain stands -/

/-- The moves up to the point at which a place is entered. -/
structure Reached (owners : List Id) (i : Nat) (h : ChainHistory ρ) : Prop where
  course : Course owners h
  onward : ∀ past a, h = past ++ [a] → Follows owners past a (.enter i)
  entered : h.entered = List.range i
  before : ∀ m ∈ h, m.place < i
  quiet : ∀ j, ¬ h.StoppedBy j

/-- The moves while the stage at a place is in control; those up to `h₀`
came before it was entered. -/
structure Inside (owners : List Id) (i : Nat) (h₀ h : ChainHistory ρ) (f : Frame ρ)
    (proceeded : Bool) : Prop where
  course : Course owners h
  control : ∃ past a, h = past ++ [a] ∧ a.place = i ∧ a.givesControl = true
  grows : ∃ new, h = h₀ ++ new ∧ ∀ m ∈ new, i ≤ m.place
  proceeded_iff : proceeded = true ↔ .proceed i ∈ h
  not_left : ∀ r, .leave i r ∉ h
  stopped_iff : f.stopped = true ↔ Stopped owners h
  entered : ∃ k, i < k ∧ k ≤ owners.length + 1 ∧ h.entered = List.range k
  /-- A stage that has not proceeded is the last one there is, and has the
  frame for itself. -/
  last : proceeded = false → h.entered = List.range (i + 1) ∧ (∀ m ∈ h, m.place ≤ i) ∧
    f.substitute = (h.substitutes i).getLast? ∧ ∀ j, j ≠ i → ¬ h.StoppedBy j
  all : proceeded = true → f.stopped = false → h.entered = List.range (owners.length + 1)

/-- The moves up to the point at which a place has been left. -/
structure Left (owners : List Id) (i : Nat) (h₀ h : ChainHistory ρ) (stopped : Bool)
    (r : Except DispatchError ρ) : Prop where
  course : Course owners h
  left : ∃ past, h = past ++ [.leave i r]
  grows : ∃ new, h = h₀ ++ new ∧ ∀ m ∈ new, i ≤ m.place
  stopped_iff : stopped = true ↔ Stopped owners h
  entered : ∃ k, i < k ∧ k ≤ owners.length + 1 ∧ h.entered = List.range k
  all : stopped = false → h.entered = List.range (owners.length + 1)

/-- Nothing has happened before the first place is entered. -/
theorem reached_nil : Reached owners 0 ([] : ChainHistory ρ) where
  course := course_nil
  onward := fun past a hn => absurd hn (by simp)
  entered := rfl
  before := fun m hm => absurd hm List.not_mem_nil
  quiet := fun j hj => absurd hj.1 List.not_mem_nil

variable {i : Nat} {h₀ : ChainHistory ρ} {f : Frame ρ} {proceeded : Bool}

/-- A move that is appended belongs to the moves since a place was entered. -/
theorem grows_append {ms : ChainHistory ρ} (hg : ∃ new, h = h₀ ++ new ∧ ∀ m ∈ new, i ≤ m.place)
    (hms : ∀ m ∈ ms, i ≤ m.place) : ∃ new, h ++ ms = h₀ ++ new ∧ ∀ m ∈ new, i ≤ m.place := by
  obtain ⟨new, rfl, hnew⟩ := hg
  refine ⟨new ++ ms, List.append_assoc _ _ _, fun m hm => ?_⟩
  rcases List.mem_append.mp hm with hm | hm
  · exact hnew m hm
  · exact hms m hm

theorem grows_append_singleton {m : ChainMove ρ}
    (hg : ∃ new, h = h₀ ++ new ∧ ∀ m ∈ new, i ≤ m.place) (hm : i ≤ m.place) :
    ∃ new, h ++ [m] = h₀ ++ new ∧ ∀ m ∈ new, i ≤ m.place :=
  grows_append hg fun x hx => by
    rw [List.mem_singleton.mp hx]
    exact hm

/-- The stage in control can act. -/
theorem Inside.course_act (hin : Inside owners i h₀ h f proceeded) {b : ChainMove ρ}
    (hb : b.isAct = true) (hi : b.place = i) : Course owners (h ++ [b]) := by
  obtain ⟨past, a, rfl, ha, hc⟩ := hin.control
  exact hin.course.follow (.acts hc hb (hi.trans ha.symm))

/-- The stage in control was entered. -/
theorem Inside.enter_mem (hin : Inside owners i h₀ h f proceeded) : .enter i ∈ h := by
  obtain ⟨k, hk, _, hent⟩ := hin.entered
  rw [← mem_entered_iff, hent]
  exact List.mem_range.mpr hk

/-! ## What each move preserves -/

/-- A stage is entered. -/
theorem Reached.enter (hr : Reached owners i h) (hi : i < owners.length) :
    Inside owners i h (h ++ [.enter i]) .start false := by
  have hent : (h ++ [ChainMove.enter i]).entered = List.range (i + 1) := by
    rw [entered_append, hr.entered, List.range_succ]
    rfl
  have hne : ∀ m ∈ h, m.place ≠ i := fun m hm => Nat.ne_of_lt (hr.before m hm)
  -- a stage that is entered for the first time has no other move behind it
  have hquiet : ∀ j, ¬ (h ++ [ChainMove.enter i]).StoppedBy j := by
    intro j
    by_cases hj : i = j
    · subst hj
      rintro ⟨-, ⟨r, hr'⟩ | ⟨⟨r, hr'⟩, -⟩⟩
      · simp only [List.mem_append, List.mem_singleton, reduceCtorEq, or_false] at hr'
        exact hne _ hr' rfl
      · simp only [List.mem_append, List.mem_singleton, reduceCtorEq, or_false] at hr'
        exact hne _ hr' rfl
    · rw [stoppedBy_append_singleton_of_place_ne (m := .enter i) hj]
      exact hr.quiet j
  refine ⟨hr.course.append_singleton hr.onward, ⟨h, _, rfl, rfl, rfl⟩, ⟨_, rfl, ?_⟩, ?_, ?_, ?_,
    ⟨i + 1, i.lt_succ_self, by omega, hent⟩, fun _ => ⟨hent, ?_, ?_, fun j _ => hquiet j⟩,
    fun hp => absurd hp Bool.false_ne_true⟩
  · intro m hm
    rw [List.mem_singleton.mp hm]
    exact Nat.le_refl i
  · simp only [Bool.false_eq_true, List.mem_append, List.mem_singleton, reduceCtorEq, or_false,
      false_iff]
    exact fun hm => hne _ hm rfl
  · simp only [List.mem_append, List.mem_singleton, reduceCtorEq, or_false]
    exact fun r hm => hne _ hm rfl
  · refine ⟨fun hs => absurd hs Bool.false_ne_true, ?_⟩
    rintro ⟨j, -, hj⟩
    exact absurd hj (hquiet j)
  · intro m hm
    rcases List.mem_append.mp hm with hm | hm
    · exact Nat.le_of_lt (hr.before m hm)
    · rw [List.mem_singleton.mp hm]
      exact Nat.le_refl i
  · have hnil : (h ++ [ChainMove.enter i]).substitutes i = [] := by
      rw [List.eq_nil_iff_forall_not_mem]
      intro r hm
      rw [mem_substitutes_iff] at hm
      simp only [List.mem_append, List.mem_singleton, reduceCtorEq, or_false] at hm
      exact hne _ hm rfl
    rw [hnil]
    rfl

/-- The terminal is entered and left. -/
theorem Reached.terminal (hr : Reached owners owners.length h) (r : Except DispatchError ρ) :
    Left owners owners.length h (h ++ [.enter owners.length, .leave owners.length r]) false r := by
  have hc : Course owners (h ++ [ChainMove.enter owners.length]) :=
    hr.course.append_singleton hr.onward
  have hent : (h ++ [ChainMove.enter owners.length, .leave owners.length r]).entered
      = List.range (owners.length + 1) := by
    rw [entered_append, hr.entered, List.range_succ]
    rfl
  refine ⟨?_, ⟨h ++ [.enter owners.length], by simp⟩, ⟨_, rfl, ?_⟩, ?_,
    ⟨_, Nat.lt_succ_self _, Nat.le_refl _, hent⟩, fun _ => hent⟩
  · rw [show h ++ [ChainMove.enter owners.length, .leave owners.length r]
        = (h ++ [.enter owners.length]) ++ [.leave owners.length r] by simp]
    exact hc.follow (.acts rfl rfl rfl)
  · intro m hm
    simp only [List.mem_cons, List.not_mem_nil, or_false] at hm
    rcases hm with rfl | rfl <;> exact Nat.le_refl _
  · refine ⟨fun hs => absurd hs Bool.false_ne_true, ?_⟩
    rintro ⟨j, hj, hs⟩
    rw [stoppedBy_append_of_place_ne] at hs
    · exact absurd hs (hr.quiet j)
    · intro m hm
      simp only [List.mem_cons, List.not_mem_nil, or_false] at hm
      rcases hm with rfl | rfl <;> exact Nat.ne_of_gt hj

/-- The stage in control puts in a result. -/
theorem Inside.shortCircuit (hin : Inside owners i h₀ h f proceeded) (hi : i < owners.length)
    (r : ρ) :
    Inside owners i h₀ (h ++ [.shortCircuit i r]) (f.shortCircuit r) proceeded := by
  refine ⟨hin.course_act rfl rfl, ⟨h, _, rfl, rfl, rfl⟩,
    grows_append_singleton hin.grows (Nat.le_refl i), ?_, ?_, ?_, ?_, fun hp => ?_,
    fun _ hs => absurd hs (by simp [Frame.shortCircuit])⟩
  · simpa using hin.proceeded_iff
  · simpa using hin.not_left
  · refine ⟨fun _ => ⟨i, hi, ?_, .inl ⟨r, by simp⟩⟩, fun _ => rfl⟩
    exact List.mem_append_left _ hin.enter_mem
  · simpa using hin.entered
  · obtain ⟨hent, hplace, -, hquiet⟩ := hin.last hp
    refine ⟨by simpa using hent, ?_, ?_, ?_⟩
    · intro m hm
      rcases List.mem_append.mp hm with hm | hm
      · exact hplace m hm
      · rw [List.mem_singleton.mp hm]
        exact Nat.le_refl _
    · simp [Frame.shortCircuit, substitutes]
    · intro j hj
      rw [stoppedBy_append_singleton_of_place_ne (m := .shortCircuit i r) hj.symm]
      exact hquiet j hj

/-- The stage in control proceeds and is given its reply at once. -/
theorem Inside.proceed_reply (hin : Inside owners i h₀ h f proceeded)
    {r : Except DispatchError ρ} (hr : Follows owners h (.proceed i) (.reply i r))
    (hall : f.stopped = false → h.entered = List.range (owners.length + 1)) :
    Inside owners i h₀ (h ++ [.proceed i, .reply i r]) f true := by
  have hassoc : h ++ [ChainMove.proceed i, .reply i r] = (h ++ [.proceed i]) ++ [.reply i r] := by
    simp
  refine ⟨?_, ⟨h ++ [.proceed i], _, hassoc, rfl, rfl⟩, grows_append hin.grows ?_, ?_, ?_, ?_, ?_,
    fun hp => absurd hp.symm Bool.false_ne_true, fun _ hs => ?_⟩
  · rw [hassoc]
    exact (hin.course_act rfl rfl).follow hr
  · intro m hm
    simp only [List.mem_cons, List.not_mem_nil, or_false] at hm
    rcases hm with rfl | rfl <;> exact Nat.le_refl _
  · simp
  · simpa using hin.not_left
  · rw [hassoc, stopped_append_reply, stopped_append_proceed hin.not_left]
    exact hin.stopped_iff
  · simpa using hin.entered
  · simpa using hall hs

/-- A stage that proceeds for the first time and has put in no result
reaches the next place, with the frame as it was at the start. -/
theorem Inside.onward (hin : Inside owners i h₀ h f false) (hf : f.substitute = none) :
    f = .start ∧ Reached owners (i + 1) (h ++ [.proceed i]) := by
  obtain ⟨hent, hplace, hsub, hquiet⟩ := hin.last rfl
  have hp : .proceed i ∉ h := by
    rw [← hin.proceeded_iff]
    exact Bool.false_ne_true
  -- the frame holds what this stage has put in, as it is the last one there is
  have hnil : h.substitutes i = [] := List.getLast?_eq_none_iff.mp (hsub ▸ hf)
  have hnone : ∀ j, ¬ h.StoppedBy j := by
    intro j
    by_cases hj : j = i
    · subst hj
      rintro ⟨-, ⟨r, hr⟩ | ⟨⟨r, hr⟩, -⟩⟩
      · rw [← mem_substitutes_iff, hnil] at hr
        exact absurd hr List.not_mem_nil
      · exact hin.not_left r hr
    · exact hquiet j hj
  have hstop : f.stopped = false := by
    rw [← Bool.not_eq_true, hin.stopped_iff]
    rintro ⟨j, -, hj⟩
    exact hnone j hj
  refine ⟨?_, hin.course_act rfl rfl, ?_, by simpa using hent, ?_, ?_⟩
  · cases f
    simp only [Frame.start, Frame.mk.injEq]
    exact ⟨hf, hstop⟩
  · intro past a hh
    obtain ⟨rfl, ha⟩ := List.append_inj' hh rfl
    rw [← List.singleton_inj.mp ha]
    exact .onward hp hnil
  · intro m hm
    rcases List.mem_append.mp hm with hm | hm
    · exact Nat.lt_succ_of_le (hplace m hm)
    · rw [List.mem_singleton.mp hm]
      exact Nat.lt_succ_self i
  · intro j
    by_cases hj : j = i
    · subst hj
      rintro ⟨-, ⟨r, hr⟩ | ⟨-, hr⟩⟩
      · rw [← mem_substitutes_iff, substitutes_append, hnil] at hr
        exact absurd hr List.not_mem_nil
      · exact hr (by simp)
    · rw [stoppedBy_append_singleton_of_place_ne (m := .proceed i) fun hij => hj hij.symm]
      exact hnone j

/-- The result of the next place is the reply to the stage in control. -/
theorem Inside.returned (hin : Inside owners i h₀ h f false) {h' : ChainHistory ρ}
    {f' : Frame ρ} {r : Except DispatchError ρ}
    (hl : Left owners (i + 1) (h ++ [.proceed i]) h' f'.stopped r) :
    Inside owners i h₀ (h' ++ [.reply i r]) f' true := by
  obtain ⟨new, hnew, hplace⟩ := hl.grows
  have hp : .proceed i ∈ h' := by simp [hnew]
  refine ⟨?_, ⟨h', _, rfl, rfl, rfl⟩, grows_append_singleton ?_ (Nat.le_refl i), ?_, ?_, ?_, ?_,
    fun hf => absurd hf.symm Bool.false_ne_true, fun _ hs => by simpa using hl.all hs⟩
  · obtain ⟨past, rfl⟩ := hl.left
    exact hl.course.follow .returned
  · rw [hnew]
    have hgrows := grows_append_singleton (m := .proceed i) hin.grows (Nat.le_refl i)
    exact grows_append hgrows fun m hm => Nat.le_of_succ_le (hplace m hm)
  · simp [hp]
  · intro s hs
    simp only [hnew, List.mem_append, List.mem_singleton, reduceCtorEq, or_false] at hs
    rcases hs with hs | hs
    · exact hin.not_left s hs
    · exact absurd (hplace _ hs) (Nat.not_succ_le_self i)
  · rw [stopped_append_reply]
    exact hl.stopped_iff
  · obtain ⟨k, hk, hkn, hent⟩ := hl.entered
    exact ⟨k, Nat.lt_of_succ_lt hk, hkn, by simpa using hent⟩

/-- The stage in control returns. -/
theorem Inside.leave (hin : Inside owners i h₀ h f proceeded) (hi : i < owners.length)
    (r : Except DispatchError ρ) :
    Left owners i h₀ (h ++ [.leave i r]) (f.leave proceeded).stopped r := by
  -- by leaving, a stage can stop the chain for itself only
  have hne : ∀ j, j ≠ i → ((h ++ [ChainMove.leave i r]).StoppedBy j ↔ h.StoppedBy j) :=
    fun j hj => stoppedBy_append_singleton_of_place_ne hj.symm
  have hown : (h ++ [ChainMove.leave i r]).StoppedBy i ↔ h.StoppedBy i ∨ .proceed i ∉ h := by
    have hent := hin.enter_mem
    unfold StoppedBy
    simp only [List.mem_append, List.mem_singleton, reduceCtorEq, or_false, hent, true_and,
      ChainMove.leave.injEq, hin.not_left, exists_false, false_and, or_false, false_or, exists_eq]
  refine ⟨hin.course_act rfl rfl, ⟨h, rfl⟩, grows_append_singleton hin.grows (Nat.le_refl i), ?_,
    by simpa using hin.entered, fun hs => ?_⟩
  · have hstop : (f.leave proceeded).stopped = true ↔ Stopped owners h ∨ .proceed i ∉ h := by
      rw [← hin.stopped_iff, ← hin.proceeded_iff]
      simp [Frame.leave]
    rw [hstop]
    constructor
    · rintro (⟨j, hj, hs⟩ | hp)
      · refine ⟨j, hj, ?_⟩
        by_cases hji : j = i
        · subst hji
          exact hown.mpr (.inl hs)
        · exact (hne j hji).mpr hs
      · exact ⟨i, hi, hown.mpr (.inr hp)⟩
    · rintro ⟨j, hj, hs⟩
      by_cases hji : j = i
      · subst hji
        exact (hown.mp hs).imp (fun hs => ⟨j, hj, hs⟩) id
      · exact .inl ⟨j, hj, (hne j hji).mp hs⟩
  · have hs' : f.stopped = false ∧ proceeded = true := by simpa [Frame.leave] using hs
    simpa using hin.all hs'.2 hs'.1

end ChainHistory

open ChainHistory

variable {S : Signature} {owners : List Id}

/-! ## What a run preserves -/

/-- **An interceptor stays inside its place**, whatever it does, if each
run of the rest of its chain reaches the next place and leaves it. -/
theorem inside_of_driveNoted {lift : (c : UserCall β σ) → Program S c.Reply} {owner : Id} {i : Nat}
    {rest : Frame ρ → ChainHistory ρ →
      Program S (Frame ρ × ChainHistory ρ × Except DispatchError ρ)}
    (howner : owners[i]? = some owner)
    (hrest : ∀ h t f' h' r, Reached owners (i + 1) h →
      (rest .start h).Runs t (.ok (f', h', r)) → Left owners (i + 1) h h' f'.stopped r)
    {p : Program (chainCalls β σ ρ) α} {f : Frame ρ} {proceeded : Bool} {h₀ h : ChainHistory ρ}
    (hin : Inside owners i h₀ h f proceeded) {t : List (Exchange S)} {f' : Frame ρ}
    {proceeded' : Bool} {h' : ChainHistory ρ} {a : α}
    (hrun : (p.driveNoted lift owner i rest f proceeded h).Runs t
      (.ok (f', proceeded', h', a))) :
    Inside owners i h₀ h' f' proceeded' := by
  have hi : i < owners.length := (List.getElem?_eq_some_iff.mp howner).1
  induction p generalizing f proceeded h t with
  | done a =>
    obtain ⟨-, hd⟩ := Program.runs_done_iff.mp hrun
    cases hd
    exact hin
  | panic p =>
    obtain ⟨-, hd⟩ := Program.runs_panic_iff.mp hrun
    cases hd
  | call c next ih =>
    cases c with
    | user c =>
      obtain ⟨r, u, v, rfl, -, hv⟩ := Program.runs_bind_ok_iff.mp hrun
      exact ih r hin hv
    | proceed =>
      cases proceeded with
      | true =>
        refine ih _ (hin.proceed_reply (.again ?_ howner) (hin.all rfl)) hrun
        exact hin.proceeded_iff.mp rfl
      | false =>
        unfold Program.driveNoted at hrun
        cases hf : f.substitute with
        | some r =>
          rw [hf] at hrun
          obtain ⟨-, -, hsub, -⟩ := hin.last rfl
          have hlast : (h.substitutes i).getLast? = some r := hsub ▸ hf
          have hr : .shortCircuit i r ∈ h := mem_substitutes_iff.mp (List.mem_of_getLast? hlast)
          refine ih _ (hin.proceed_reply (.substituted ?_ hlast) fun hs => ?_) hrun
          · rw [← hin.proceeded_iff]
            exact Bool.false_ne_true
          -- a stage that has put in a result has stopped the chain
          · have hstop := hin.stopped_iff.mpr ⟨i, hi, hin.enter_mem, .inl ⟨r, hr⟩⟩
            exact absurd (hs.symm.trans hstop) Bool.false_ne_true
        | none =>
          rw [hf] at hrun
          obtain ⟨x, u, v, rfl, hu, hv⟩ := Program.runs_bind_ok_iff.mp hrun
          -- the rest of the chain starts from the frame a chain starts from
          obtain ⟨rfl, hreach⟩ := hin.onward hf
          exact ih _ (hin.returned (hrest _ _ _ _ _ hreach hu)) hv
    | shortCircuit r => exact ih () (hin.shortCircuit hi r) hrun
    | state => exact ih _ hin hrun

/-- **A place that is reached is left again**, and the moves between
follow one another. -/
theorem left_of_runStagesNoted (lift : (c : UserCall β σ) → Program S c.Reply)
    (terminal : Program S (Except DispatchError ρ)) (stages : List (Stage β σ ρ)) {i : Nat}
    (howners : owners.drop i = stages.map (·.owner)) (hi : i ≤ owners.length)
    {h : ChainHistory ρ} (hr : Reached owners i h) {t : List (Exchange S)} {f' : Frame ρ}
    {h' : ChainHistory ρ} {r : Except DispatchError ρ}
    (hrun : (runStagesNoted lift (plainTerminal terminal) i stages .start h).Runs t
      (.ok (f', h', r))) :
    Left owners i h h' f'.stopped r := by
  induction stages generalizing i h t f' h' r with
  | nil =>
    obtain rfl : i = owners.length :=
      Nat.le_antisymm hi (List.drop_eq_nil_iff.mp howners)
    obtain ⟨x, u, v, rfl, hu, hv⟩ := Program.runs_bind_ok_iff.mp hrun
    obtain ⟨y, u, w, rfl, -, hw⟩ := Program.runs_bind_ok_iff.mp hu
    obtain ⟨rfl, hd⟩ := Program.runs_done_iff.mp hw
    cases hd
    obtain ⟨rfl, hd⟩ := Program.runs_done_iff.mp hv
    cases hd
    exact hr.terminal r
  | cons s stages ih =>
    have hlt : i < owners.length := by
      refine Nat.lt_of_le_of_ne hi fun hn => ?_
      rw [hn, List.drop_length] at howners
      exact absurd howners (by simp)
    rw [List.drop_eq_getElem_cons hlt, List.map_cons, List.cons.injEq] at howners
    obtain ⟨⟨f₁, proceeded, h₁, r₁⟩, u, v, rfl, hu, hv⟩ := Program.runs_bind_ok_iff.mp hrun
    obtain ⟨rfl, hd⟩ := Program.runs_done_iff.mp hv
    cases hd
    refine (inside_of_driveNoted ?_ ?_ (hr.enter hlt) hu).leave hlt _
    · exact List.getElem?_eq_some_iff.mpr ⟨hlt, howners.1⟩
    · exact fun h t f' h' r hreach hrest => ih howners.2 hlt hreach hrest

/-! ## Chains that stand alone -/

/-- **The order of a chain**, read off the history of a run that has come
to its end. -/
structure ChainHistory.Orderly (owners : List Id) (h : ChainHistory ρ) : Prop where
  /-- The places are entered in their order, each at most once, and the
  terminal, at the last place, after all stages. -/
  in_order : ∃ k ≤ owners.length + 1, h.entered = List.range k
  /-- A place is entered by the stage before it, which proceeds for the
  first time and has put in no result. -/
  entered_by : ∀ past later i, h = past ++ .enter (i + 1) :: later →
    ∃ before, past = before ++ [.proceed i] ∧ .proceed i ∉ before ∧
      ∀ r, .shortCircuit i r ∉ before
  /-- A stage that proceeds for the first time and has put in no result
  enters the next place. -/
  onward : ∀ past later i, h = past ++ .proceed i :: later → .proceed i ∉ past →
    (∀ r, .shortCircuit i r ∉ past) → later.head? = some (.enter (i + 1))
  /-- A stage that proceeds for the first time after it has put in a
  result is given the last one it has put in, and enters nothing. -/
  substituted : ∀ past later i r, h = past ++ .proceed i :: later → .proceed i ∉ past →
    (substitutes past i).getLast? = some r → later.head? = some (.reply i (.ok r))
  /-- A stage that proceeds again is given an error that names it, and
  enters nothing. -/
  again : ∀ past later i, h = past ++ .proceed i :: later → .proceed i ∈ past →
    ∃ owner, owners[i]? = some owner ∧
      later.head? = some (.reply i (.error (.doubleProceed owner)))
  /-- What a place is left with is the reply to the stage before it. -/
  returned : ∀ past later i r, h = past ++ .leave (i + 1) r :: later →
    later.head? = some (.reply i r)

namespace ChainHistory

variable {h : ChainHistory ρ} {stopped : Bool} {r : Except DispatchError ρ}

/-- Every move but the last one is followed by another. -/
theorem Left.next (hl : Left owners 0 [] h stopped r) {past later : ChainHistory ρ}
    {a : ChainMove ρ} (hh : h = past ++ a :: later) (ha : a ≠ .leave 0 r) :
    ∃ b, later.head? = some b ∧ Follows owners past a b := by
  cases later with
  | nil =>
    obtain ⟨past', hpast'⟩ := hl.left
    exact absurd (List.singleton_inj.mp (List.append_inj' (hh.symm.trans hpast') rfl).2) ha
  | cons b later => exact ⟨b, rfl, hl.course past a b later hh⟩

/-- The places that were entered are the first ones, in their order. -/
theorem Left.range_of_entered (hl : Left owners 0 [] h stopped r) :
    ∃ k ≤ owners.length + 1, h.entered = List.range k := by
  obtain ⟨k, -, hk, hent⟩ := hl.entered
  exact ⟨k, hk, hent⟩

/-- **A chain that was entered and left has gone its course in order.** -/
theorem Left.orderly (hl : Left owners 0 [] h stopped r) : Orderly owners h where
  in_order := hl.range_of_entered
  entered_by := by
    intro past later i hh
    rcases List.eq_nil_or_concat past with rfl | ⟨before, a, rfl⟩
    -- the first place that is entered is the first one there is
    · obtain ⟨k, -, hent⟩ := hl.range_of_entered
      rw [hh, List.nil_append, entered_cons_enter] at hent
      cases k with
      | zero => exact absurd hent (by simp)
      | succ k =>
        rw [List.range_succ_eq_map] at hent
        exact absurd (List.cons.inj hent).1 (Nat.succ_ne_zero i)
    · have hf := hl.course before a (.enter (i + 1)) later (by simpa using hh)
      cases hf with
      | onward hp hs =>
        refine ⟨before, by simp, hp, fun r hr => ?_⟩
        rw [← mem_substitutes_iff, hs] at hr
        exact absurd hr List.not_mem_nil
      | acts _ hact _ => exact absurd hact (by simp [ChainMove.isAct])
  onward := by
    intro past later i hh hp hs
    obtain ⟨b, hb, hf⟩ := hl.next hh (by simp)
    cases hf with
    | onward _ _ => exact hb
    | substituted _ hr =>
      exact absurd (mem_substitutes_iff.mp (List.mem_of_getLast? hr)) (hs _)
    | again hp' _ => exact absurd hp' hp
    | acts hc _ _ => exact absurd hc (by simp [ChainMove.givesControl])
  substituted := by
    intro past later i r hh hp hr
    obtain ⟨b, hb, hf⟩ := hl.next hh (by simp)
    cases hf with
    | onward _ hs => exact absurd hr (by simp [hs])
    | substituted _ hr' =>
      rw [hb, Option.some.inj (hr'.symm.trans hr)]
    | again hp' _ => exact absurd hp' hp
    | acts hc _ _ => exact absurd hc (by simp [ChainMove.givesControl])
  again := by
    intro past later i hh hp
    obtain ⟨b, hb, hf⟩ := hl.next hh (by simp)
    cases hf with
    | onward hp' _ => exact absurd hp hp'
    | substituted hp' _ => exact absurd hp hp'
    | again _ howner => exact ⟨_, howner, hb⟩
    | acts hc _ _ => exact absurd hc (by simp [ChainMove.givesControl])
  returned := by
    intro past later i s hh
    obtain ⟨b, hb, hf⟩ := hl.next hh (by simp)
    cases hf with
    | returned => exact hb
    | acts hc _ _ => exact absurd hc (by simp [ChainMove.givesControl])

end ChainHistory

/-- A chain that stands alone is entered and left. -/
theorem left_of_runChainNoted {lift : (c : UserCall β σ) → Program S c.Reply}
    {terminal : Program S (Except DispatchError ρ)} {stages : List (Stage β σ ρ)}
    {t : List (Exchange S)} {h : ChainHistory ρ} {out : Except DispatchError (ρ × Bool)}
    (hrun : (runChainNoted lift terminal stages).Runs t (.ok (h, out))) :
    ∃ r stopped, out = r.map (fun r => (r, stopped)) ∧
      Left (stages.map (·.owner)) 0 [] h stopped r := by
  obtain ⟨⟨f', h', r⟩, u, v, rfl, hu, hv⟩ := Program.runs_bind_ok_iff.mp hrun
  obtain ⟨rfl, hd⟩ := Program.runs_done_iff.mp hv
  cases hd
  exact ⟨r, f'.stopped, rfl,
    left_of_runStagesNoted lift terminal stages rfl (Nat.zero_le _) reached_nil hu⟩

/-- **Every run of a chain has a history, and the history is in order.**
The run is that of the chain itself, for the history changes nothing. It
is a run of the terminal with what stages do before and after it, if the
terminal was entered, and else it is what stages do. If the chain gives a
result, it is the one that its first place was left
with; the chain counts as stopped exactly if some stage that was entered
has put in a result or has left without ever having proceeded; and if it
does not count as stopped, then the terminal was entered. -/
theorem runChain_orderly (lift : (c : UserCall β σ) → Program S c.Reply)
    (terminal : Program S (Except DispatchError ρ)) (stages : List (Stage β σ ρ)) :
    (runChainNoted lift terminal stages).bind (fun x => .done x.2)
        = runChain lift terminal stages ∧
      ∀ t h out, (runChainNoted lift terminal stages).Runs t (.ok (h, out)) →
        h.Orderly (stages.map (·.owner)) ∧
          (∀ P, (∀ c, (lift c).Only P) → TerminalAt P terminal stages.length h t) ∧
          ∀ r stopped, out = .ok (r, stopped) →
            h.getLast? = some (.leave 0 (.ok r)) ∧
              (stopped = true ↔ ∃ i < stages.length, .enter i ∈ h ∧
                ((∃ r, .shortCircuit i r ∈ h) ∨ (∃ r, .leave i r ∈ h) ∧ .proceed i ∉ h)) ∧
              (stopped = false → h.entered = List.range (stages.length + 1)) := by
  refine ⟨runChainNoted_forget lift terminal stages, fun t h out hrun => ?_⟩
  obtain ⟨r', stopped', rfl, hl⟩ := left_of_runChainNoted hrun
  refine ⟨hl.orderly, fun P hlift => runChainNoted_split hlift hrun, fun r stopped hout => ?_⟩
  obtain ⟨past, hpast⟩ := hl.left
  cases r' with
  | error e => exact absurd hout (by simp [Except.map])
  | ok r' =>
    obtain ⟨rfl, rfl⟩ : r' = r ∧ stopped' = stopped := by simpa [Except.map] using hout
    refine ⟨by simp [hpast], ?_, ?_⟩
    · have hiff := hl.stopped_iff
      unfold Stopped at hiff
      rwa [List.length_map] at hiff
    · have hall := hl.all
      rwa [List.length_map] at hall

/-- A stage that proceeds twice and keeps what it is told first. -/
def Stage.proceedingTwice (owner : Id) : Stage Unit Unit Nat :=
  ⟨owner, .call .proceed fun first => .call .proceed fun _ => .done first⟩

/-- A stage that puts in two results before it proceeds. -/
def Stage.puttingIn (owner : Id) (r s : Nat) : Stage Unit Unit Nat :=
  ⟨owner, .call (.shortCircuit r) fun _ => .call (.shortCircuit s) fun _ =>
    .call .proceed fun reply => .done reply⟩

/-- A stage that proceeds twice, around one that puts in results: the
first is told the later of the two results and then that it proceeds
again, and neither the third stage nor the terminal is entered. -/
theorem runChain_orderly_puttingIn :
    let lift : (c : UserCall Unit Unit) → Program (userCalls Unit Unit) c.Reply :=
      fun c => .call c .done
    let terminal : Program (userCalls Unit Unit) (Except DispatchError Nat) := .done (.ok 0)
    let stages : List (Stage Unit Unit Nat) :=
      [.proceedingTwice (.ofInt 1), .puttingIn (.ofInt 2) 7 8, .proceedingTwice (.ofInt 3)]
    let h : ChainHistory Nat :=
      [.enter 0, .proceed 0, .enter 1, .shortCircuit 1 7, .shortCircuit 1 8, .proceed 1,
        .reply 1 (.ok 8), .leave 1 (.ok 8), .reply 0 (.ok 8), .proceed 0,
        .reply 0 (.error (.doubleProceed (.ofInt 1))), .leave 0 (.ok 8)]
    (runChainNoted lift terminal stages).Runs [] (.ok (h, .ok (8, true))) ∧
      h.Orderly [.ofInt 1, .ofInt 2, .ofInt 3] ∧ h.getLast? = some (.leave 0 (.ok 8)) := by
  intro lift terminal stages h
  have hrun : (runChainNoted lift terminal stages).Runs [] (.ok (h, .ok (8, true))) := .done _
  obtain ⟨-, hall⟩ := runChain_orderly lift terminal stages
  obtain ⟨horder, -, hout⟩ := hall [] h (.ok (8, true)) hrun
  exact ⟨hrun, horder, (hout 8 true rfl).1⟩

end Switchboard
