import Switchboard.Proofs.Record.Listing
import Switchboard.Station.Run

/-!
# Offers of a station

While a station loads bots it offers records to its registrars, and every
offer is answered: by the id of a bot, by a mismatch, or by a failure; or the
registrar panics, or does not come to an end. `StationState.offers` lists the
offers that some work of a station makes, with their answers.

Three loops are inside each other. A record is offered to the registrars in
the order in which they were added, until one of them answers anything but a
mismatch (`OfferedTo`); the records of a directory are offered one after the
other (`Offered`), and so are those of several directories (`Station.Loads`).
Whatever ends it, the bots of the station are those it had before, followed by
one for each offer that was accepted (`StationState.loadBots_offers`).

What work of a station makes of its bots and which offers it makes is said of
the parts of the work (`StationState.Meets`), and a sequence meets what its
parts meet (`StationState.Meets.bind`).
-/

namespace Switchboard

variable {α γ β σ : Type}

/-- An offer of a record to a registrar. The answer is missing if the registrar
was given up, and an error if it panicked. -/
structure Offer (β : Type) where
  registrar : Registrar β
  record : BotRecord
  answer : Option (Except Payload (Except RegisterError Id))

namespace Offer

/-- The registrar says that the record is meant for another component. -/
def Declined (o : Offer β) : Prop :=
  ∃ expected got, o.answer = some (.ok (.error (.mismatch expected got)))

/-- The registrar registers a bot. -/
def Accepted (o : Offer β) : Prop := ∃ id, o.answer = some (.ok (.ok id))

/-- **The bot that an offer gives**: the id that was answered, and who was
offered what. -/
def bot? (o : Offer β) : Option RegisteredBot :=
  match o.answer with
  | some (.ok (.ok id)) => some ⟨id, o.record.component, o.record.name, o.registrar.name⟩
  | _ => none

/-- **An offer breaks the loading off**, and what comes of it: an error that
names the registrar and the record, a panic, or nothing at all. -/
inductive Breaks (o : Offer β) : Option (Except Payload (Except StationError α)) → Prop
  | failed {reason : String} (answer : o.answer = some (.ok (.error (.failed reason)))) :
      Breaks o (some (.ok (.error (.register o.registrar.name o.record.name reason))))
  | panicked {p : Payload} (answer : o.answer = some (.error p)) : Breaks o (some (.error p))
  | givenUp (answer : o.answer = none) : Breaks o none

/-- The bots of offers that were accepted. -/
def bots (os : List (Offer β)) : List RegisteredBot := os.filterMap bot?

@[simp] theorem bots_nil : bots ([] : List (Offer β)) = [] := rfl

@[simp] theorem bots_append (os os' : List (Offer β)) : bots (os ++ os') = bots os ++ bots os' :=
  List.filterMap_append

theorem bots_cons_of_declined {o : Offer β} (h : o.Declined) (os : List (Offer β)) :
    bots (o :: os) = bots os := by
  obtain ⟨expected, got, hanswer⟩ := h
  simp only [bots, List.filterMap_cons, bot?, hanswer]

theorem bots_singleton_of_breaks {o : Offer β}
    {r : Option (Except Payload (Except StationError α))} (h : o.Breaks r) : bots [o] = [] := by
  cases h with
  | failed answer | panicked answer | givenUp answer =>
    simp only [bots, List.filterMap_cons, bot?, answer, List.filterMap_nil]

/-- What breaks the loading off does so for whoever asked for it. -/
theorem Breaks.map {o : Offer β} {r : Option (Except Payload (Except StationError α))}
    (h : o.Breaks r) (f : α → γ) : o.Breaks (r.map (Except.map (Except.map f))) := by
  cases h with
  | failed answer => exact .failed answer
  | panicked answer => exact .panicked answer
  | givenUp answer => exact .givenUp answer

theorem Breaks.not_declined {o : Offer β} {r : Option (Except Payload (Except StationError α))}
    (h : o.Breaks r) : ¬o.Declined := by
  rintro ⟨expected, got, hanswer⟩
  cases h with
  | failed answer | panicked answer | givenUp answer =>
    rw [hanswer] at answer
    cases answer

theorem Accepted.not_declined {o : Offer β} (h : o.Accepted) : ¬o.Declined := by
  rintro ⟨expected, got, hanswer⟩
  obtain ⟨id, hid⟩ := h
  rw [hid] at hanswer
  cases hanswer

end Offer

/-- **A record is offered to registrars** one by one, in their order, until one
of them answers anything but a mismatch, and to none after it. -/
structure OfferedTo (registrars : List (Registrar β)) (record : BotRecord)
    (os : List (Offer β)) : Prop where
  record : ∀ o ∈ os, o.record = record
  inOrder : os.map (·.registrar) <+: registrars
  goesOn : ∀ o ∈ os.dropLast, o.Declined
  ends : os.map (·.registrar) = registrars ∨ ∃ o, os.getLast? = some o ∧ ¬o.Declined

theorem offeredTo_nil (record : BotRecord) :
    OfferedTo ([] : List (Registrar β)) record [] :=
  ⟨by simp, List.prefix_rfl, by simp, .inl rfl⟩

/-- The first registrar is the last one that is asked. -/
theorem offeredTo_singleton {o : Offer β} (h : ¬o.Declined) (rest : List (Registrar β)) :
    OfferedTo (o.registrar :: rest) o.record [o] :=
  ⟨by simp, by simp, by simp, .inr ⟨o, rfl, h⟩⟩

/-- The first registrar is not the last one that is asked. -/
theorem OfferedTo.cons {rest : List (Registrar β)} {record : BotRecord} {o : Offer β}
    {os : List (Offer β)} (ho : o.Declined) (hrecord : o.record = record)
    (h : OfferedTo rest record os) : OfferedTo (o.registrar :: rest) record (o :: os) where
  record := List.forall_mem_cons.mpr ⟨hrecord, h.record⟩
  inOrder := by simpa using h.inOrder
  goesOn := by
    cases os with
    | nil => simp
    | cons o' os =>
      rw [List.dropLast_cons_cons]
      exact List.forall_mem_cons.mpr ⟨ho, h.goesOn⟩
  ends := by
    refine h.ends.imp (fun hall => by simp [hall]) ?_
    rintro ⟨last, hlast, hends⟩
    exact ⟨last, by rw [List.getLast?_cons, hlast]; rfl, hends⟩

/-- **What the offers of a record come to**: a bot if one is accepted and
none if all are declined, or what the last of them breaks off with. -/
inductive Settles : List (Offer β) →
    Option (Except Payload (Except StationError (Option RegisteredBot))) → Prop
  | settled {os : List (Offer β)} {bot : Option RegisteredBot}
      (answers : ∀ o ∈ os, o.Declined ∨ o.Accepted) (bots : bot.toList = Offer.bots os) :
      Settles os (some (.ok (.ok bot)))
  | brokenOff {os : List (Offer β)} {o : Offer β}
      {r : Option (Except Payload (Except StationError (Option RegisteredBot)))}
      (answers : ∀ o ∈ os, o.Declined ∨ o.Accepted) (breaks : o.Breaks r) :
      Settles (os ++ [o]) r

theorem Settles.cons {o : Offer β} {os : List (Offer β)}
    {r : Option (Except Payload (Except StationError (Option RegisteredBot)))}
    (ho : o.Declined) (h : Settles os r) : Settles (o :: os) r := by
  cases h with
  | settled answers bots =>
    exact .settled (List.forall_mem_cons.mpr ⟨.inl ho, answers⟩)
      (bots.trans (Offer.bots_cons_of_declined ho os).symm)
  | brokenOff answers breaks =>
    rw [← List.cons_append]
    exact .brokenOff (List.forall_mem_cons.mpr ⟨.inl ho, answers⟩) breaks

/-- **Records are offered to registrars** one after the other. -/
inductive Offered (registrars : List (Registrar β)) : List BotRecord → List (Offer β) → Prop
  | nil : Offered registrars [] []
  | cons {record : BotRecord} {records : List BotRecord} {os os' : List (Offer β)}
      (first : OfferedTo registrars record os) (rest : Offered registrars records os') :
      Offered registrars (record :: records) (os ++ os')

namespace Station

/-- The station with further bots. -/
def withBots (st : Station β) (bots : List RegisteredBot) : Station β :=
  { st with bots := st.bots ++ bots }

@[simp] theorem withBots_nil (st : Station β) : st.withBots [] = st := by
  simp [withBots]

@[simp] theorem withBots_withBots (st : Station β) (bots more : List RegisteredBot) :
    (st.withBots bots).withBots more = st.withBots (bots ++ more) := by
  simp [withBots]

/-- What the station finds in a directory. -/
def Finds (st : Station β) (directory : String) (r : Except RecordError (List BotRecord)) : Prop :=
  st.loader.Finds st.surroundings.files st.surroundings.directory directory r

end Station

section Loading

variable (registrars : List (Registrar β))
  (finds : String → Except RecordError (List BotRecord) → Prop)

/-- **What comes of offering records**, and the offers it takes. All of them
are offered, or there is a first offer that breaks it off, and nothing is
offered after it. -/
inductive Enlists : List BotRecord → List (Offer β) →
    Option (Except Payload (Except StationError (List RegisteredBot))) → Prop
  | enlisted {records : List BotRecord} {os : List (Offer β)}
      (offered : Offered registrars records os) (answers : ∀ o ∈ os, o.Declined ∨ o.Accepted) :
      Enlists records os (some (.ok (.ok (Offer.bots os))))
  | brokenOff {earlier later : List BotRecord} {record : BotRecord} {os : List (Offer β)}
      {o : Offer β} {r : Option (Except Payload (Except StationError (List RegisteredBot)))}
      (offered : Offered registrars (earlier ++ [record]) (os ++ [o]))
      (answers : ∀ o ∈ os, o.Declined ∨ o.Accepted) (breaks : o.Breaks r) :
      Enlists (earlier ++ record :: later) (os ++ [o]) r

/-- **What comes of loading bots** from directories, and the offers it takes.
All directories hold records, and all records are offered; or there is a first
directory that does not, and the records of those before it are offered; or
there is a first offer that breaks it off, and nothing is offered after it. -/
inductive Loads : List String → List (Offer β) →
    Option (Except Payload (Except StationError (List RegisteredBot))) → Prop
  | loaded {directories : List String} {records : List (List BotRecord)} {os : List (Offer β)}
      (found : List.Forall₂ (fun d rs => finds d (.ok rs)) directories records)
      (offered : Offered registrars records.flatten os)
      (answers : ∀ o ∈ os, o.Declined ∨ o.Accepted) :
      Loads directories os (some (.ok (.ok (Offer.bots os))))
  | spoiled {before after : List String} {d : String} {e : RecordError}
      {records : List (List BotRecord)} {os : List (Offer β)}
      (found : List.Forall₂ (fun d rs => finds d (.ok rs)) before records)
      (next : finds d (.error e))
      (offered : Offered registrars records.flatten os)
      (answers : ∀ o ∈ os, o.Declined ∨ o.Accepted) :
      Loads (before ++ d :: after) os (some (.ok (.error (.record e))))
  | brokenOff {before after : List String} {d : String} {records : List (List BotRecord)}
      {earlier later : List BotRecord} {record : BotRecord} {os : List (Offer β)} {o : Offer β}
      {r : Option (Except Payload (Except StationError (List RegisteredBot)))}
      (found : List.Forall₂ (fun d rs => finds d (.ok rs)) before records)
      (next : finds d (.ok (earlier ++ record :: later)))
      (offered : Offered registrars (records.flatten ++ (earlier ++ [record])) (os ++ [o]))
      (answers : ∀ o ∈ os, o.Declined ∨ o.Accepted)
      (breaks : o.Breaks r) :
      Loads (before ++ d :: after) (os ++ [o]) r

end Loading

section Parts

variable {registrars : List (Registrar β)}
  {finds : String → Except RecordError (List BotRecord) → Prop} {record : BotRecord}
  {records : List BotRecord} {directory : String} {directories : List String}
  {os os' : List (Offer β)}
  {r : Option (Except Payload (Except StationError (List RegisteredBot)))}

theorem offered_singleton (h : OfferedTo registrars record os) :
    Offered registrars [record] os := by
  simpa using Offered.cons h .nil

theorem Offered.append {records' : List BotRecord} (h : Offered registrars records os)
    (h' : Offered registrars records' os') :
    Offered registrars (records ++ records') (os ++ os') := by
  induction h with
  | nil => exact h'
  | cons first rest ih =>
    rw [List.append_assoc]
    exact .cons first ih

/-- The first record breaks it off. -/
theorem Settles.enlists {r : Option (Except Payload (Except StationError (Option RegisteredBot)))}
    (h : Settles os r) (hoffered : OfferedTo registrars record os)
    (hr : ∀ bot, r ≠ some (.ok (.ok bot))) (rest : List BotRecord)
    (f : Option RegisteredBot → List RegisteredBot) :
    Enlists registrars (record :: rest) os (r.map (Except.map (Except.map f))) := by
  cases h with
  | settled _ _ => exact absurd rfl (hr _)
  | @brokenOff os o _ answers breaks =>
    have hfirst : Offered registrars ([] ++ [record]) (os ++ [o]) := offered_singleton hoffered
    rw [← List.nil_append (record :: rest)]
    exact .brokenOff hfirst answers (breaks.map f)

/-- The first record is settled. -/
theorem Enlists.cons (h : Enlists registrars records os' r)
    (hfirst : OfferedTo registrars record os) (hanswers : ∀ o ∈ os, o.Declined ∨ o.Accepted) :
    Enlists registrars (record :: records) (os ++ os')
      (r.map (Except.map (Except.map (Offer.bots os ++ ·)))) := by
  cases h with
  | enlisted offered answers =>
    have hall := Enlists.enlisted (.cons hfirst offered)
      (List.forall_mem_append.mpr ⟨hanswers, answers⟩)
    rwa [Offer.bots_append] at hall
  | brokenOff offered answers breaks =>
    rw [← List.append_assoc, ← List.cons_append]
    refine .brokenOff ?_ (List.forall_mem_append.mpr ⟨hanswers, answers⟩) (breaks.map _)
    rw [List.append_assoc, List.cons_append]
    exact .cons hfirst offered

/-- The first directory breaks it off. -/
theorem Enlists.loads (h : Enlists registrars records os r)
    (hfound : finds directory (.ok records)) (hr : ∀ bots, r ≠ some (.ok (.ok bots)))
    (rest : List String) (f : List RegisteredBot → List RegisteredBot) :
    Loads registrars finds (directory :: rest) os (r.map (Except.map (Except.map f))) := by
  cases h with
  | enlisted _ _ => exact absurd rfl (hr _)
  | brokenOff offered answers breaks =>
    rw [← List.nil_append (directory :: rest)]
    exact .brokenOff .nil hfound offered answers (breaks.map f)

/-- The records of the first directory are settled. -/
theorem Loads.cons (h : Loads registrars finds directories os' r)
    (hfound : finds directory (.ok records)) (hoffered : Offered registrars records os)
    (hanswers : ∀ o ∈ os, o.Declined ∨ o.Accepted) :
    Loads registrars finds (directory :: directories) (os ++ os')
      (r.map (Except.map (Except.map (Offer.bots os ++ ·)))) := by
  cases h with
  | loaded found offered answers =>
    have hall := Loads.loaded (.cons hfound found) (hoffered.append offered)
      (List.forall_mem_append.mpr ⟨hanswers, answers⟩)
    rwa [Offer.bots_append] at hall
  | spoiled found next offered answers =>
    rw [← List.cons_append]
    exact .spoiled (.cons hfound found) next (hoffered.append offered)
      (List.forall_mem_append.mpr ⟨hanswers, answers⟩)
  | brokenOff found next offered answers breaks =>
    rw [← List.append_assoc, ← List.cons_append]
    refine .brokenOff (.cons hfound found) next ?_
      (List.forall_mem_append.mpr ⟨hanswers, answers⟩) (breaks.map _)
    rw [List.append_assoc, List.flatten_cons, List.append_assoc]
    exact hoffered.append offered

end Parts

/-- The offer that a call is, with its answer. -/
def StationCall.offer? : (c : StationCall β) → Option (Except Payload c.Reply) → Option (Offer β)
  | .offer r record, answer => some ⟨r, record, answer⟩
  | _, _ => none

namespace StationState

variable {B : StationCode β σ} {patience : Option Nat} {s : StationState β σ}

/-- **The offers that some work of a station makes**, in order. -/
def offers (B : StationCode β σ) (patience : Option Nat) :
    StationProgram β α → StationState β σ → List (Offer β)
  | .done _, _ => []
  | .panic _, _ => []
  | .call c next, s =>
    let (reply, s) := s.answer B patience c
    (c.offer? reply).toList ++
      match reply with
      | some (.ok reply) => offers B patience (next reply) s
      | _ => []

/-- **What some work of a station meets**: the bots of the station are those it
had before, followed by those of the offers, nothing else of the station
changes, and the offers and what the work comes to are as `Q` says. -/
def Meets (B : StationCode β σ) (patience : Option Nat) (s : StationState β σ)
    (p : StationProgram β α) (Q : List (Offer β) → Option (Except Payload α) → Prop) : Prop :=
  (run B patience p s).2.station = s.station.withBots (Offer.bots (offers B patience p s)) ∧
    Q (offers B patience p s) (run B patience p s).1

theorem meets_done {a : α} {Q : List (Offer β) → Option (Except Payload α) → Prop}
    (h : Q [] (some (.ok a))) : Meets B patience s (.done a) Q :=
  ⟨(Station.withBots_nil _).symm, h⟩

/-- A call that is no offer and changes nothing is passed over. -/
theorem meets_call {c : StationCall β} {next : c.Reply → StationProgram β α} {reply : c.Reply}
    {Q : List (Offer β) → Option (Except Payload α) → Prop}
    (hanswer : s.answer B patience c = (some (.ok reply), s)) (hoffer : ∀ a, c.offer? a = none)
    (h : Meets B patience s (next reply) Q) : Meets B patience s (.call c next) Q := by
  simpa only [Meets, run, offers, hanswer, hoffer, Option.toList_none, List.nil_append] using h

theorem Meets.mono {p : StationProgram β α}
    {Q Q' : List (Offer β) → Option (Except Payload α) → Prop} (h : Meets B patience s p Q)
    (hQ : ∀ os r, Q os r → Q' os r) : Meets B patience s p Q' :=
  ⟨h.1, hQ _ _ h.2⟩

/-- Work that is a sequence goes on where its first part is done. -/
theorem run_bind (m : StationProgram β α) (f : α → StationProgram β γ) (s : StationState β σ) :
    run B patience (m.bind f) s =
      match run B patience m s with
      | (some (.ok a), s') => run B patience (f a) s'
      | (some (.error p), s') => (some (.error p), s')
      | (none, s') => (none, s') := by
  induction m generalizing s with
  | done a => rfl
  | panic p => rfl
  | call c next ih =>
    simp only [Program.call_bind, run]
    match s.answer B patience c with
    | (some (.ok reply), s') => exact ih reply s'
    | (some (.error p), s') => rfl
    | (none, s') => rfl

/-- The offers of a sequence are those of its parts. -/
theorem offers_bind (m : StationProgram β α) (f : α → StationProgram β γ)
    (s : StationState β σ) :
    offers B patience (m.bind f) s = offers B patience m s ++
      match run B patience m s with
      | (some (.ok a), s') => offers B patience (f a) s'
      | _ => [] := by
  induction m generalizing s with
  | done a => rfl
  | panic p => rfl
  | call c next ih =>
    simp only [Program.call_bind, offers, run]
    match s.answer B patience c with
    | (some (.ok reply), s') => simp only [ih, List.append_assoc]
    | (some (.error p), s') => simp only [List.append_nil]
    | (none, s') => simp only [List.append_nil]

/-- **A sequence meets what its parts meet.** -/
theorem Meets.bind {m : StationProgram β α} {f : α → StationProgram β γ}
    {Q : List (Offer β) → Option (Except Payload α) → Prop}
    {Q' : List (Offer β) → Option (Except Payload γ) → Prop} (hm : Meets B patience s m Q)
    (hf : ∀ os a s', Q os (some (.ok a)) → s'.station = s.station.withBots (Offer.bots os) →
      Meets B patience s' (f a) fun os' r => Q' (os ++ os') r)
    (hpanic : ∀ os p, Q os (some (.error p)) → Q' os (some (.error p)))
    (hgivenUp : ∀ os, Q os none → Q' os none) : Meets B patience s (m.bind f) Q' := by
  rw [Meets, run_bind, offers_bind]
  obtain ⟨hstation, hQ⟩ := hm
  match hrun : run B patience m s with
  | (some (.ok a), s') =>
    rw [hrun] at hstation hQ
    obtain ⟨hstation', hQ'⟩ := hf _ a s' hQ hstation
    refine ⟨?_, hQ'⟩
    rw [hstation', hstation, Station.withBots_withBots, Offer.bots_append]
  | (some (.error p), s') =>
    rw [hrun] at hstation hQ
    simpa only [List.append_nil] using ⟨hstation, hpanic _ _ hQ⟩
  | (none, s') =>
    rw [hrun] at hstation hQ
    simpa only [List.append_nil] using ⟨hstation, hgivenUp _ hQ⟩

/-- **Work that goes on with a value** meets what its first part meets where
this comes to none, and otherwise what both parts meet. -/
theorem Meets.bind_except {m : StationProgram β (Except StationError α)}
    {f : Except StationError α → StationProgram β (Except StationError γ)}
    {P : List (Offer β) → Option (Except Payload (Except StationError α)) → Prop}
    {Q : List (Offer β) → Option (Except Payload (Except StationError γ)) → Prop}
    (hm : Meets B patience s m P) (g : α → γ)
    (hstops : ∀ os r, P os r → (∀ a, r ≠ some (.ok (.ok a))) →
      Q os (r.map (Except.map (Except.map g))))
    (hgoes : ∀ os a s', P os (some (.ok (.ok a))) →
      s'.station = s.station.withBots (Offer.bots os) →
      Meets B patience s' (f (.ok a)) fun os' r => Q (os ++ os') r)
    (hf : ∀ e, f (.error e) = .done (.error e)) :
    Meets B patience s (m.bind f) Q := by
  refine hm.bind (fun os r s' hP hstation => ?_) (fun os p hP => hstops os _ hP nofun)
    fun os hP => hstops os _ hP nofun
  cases r with
  | ok a => exact hgoes os a s' hP hstation
  | error e =>
    rw [hf]
    refine meets_done ?_
    rw [List.append_nil]
    exact hstops os _ hP nofun

/-- Of the value of work something may be made. -/
theorem Meets.map_except {m : StationProgram β (Except StationError α)}
    {f : Except StationError α → StationProgram β (Except StationError γ)}
    {P : List (Offer β) → Option (Except Payload (Except StationError α)) → Prop}
    {Q : List (Offer β) → Option (Except Payload (Except StationError γ)) → Prop}
    (hm : Meets B patience s m P) (g : α → γ)
    (hQ : ∀ os r, P os r → Q os (r.map (Except.map (Except.map g))))
    (hf : ∀ r, f r = .done (r.map g)) : Meets B patience s (m.bind f) Q := by
  refine hm.bind_except g (fun os r hr _ => hQ os r hr) (fun os a s' ha _ => ?_) fun e => hf _
  rw [hf]
  refine meets_done ?_
  rw [List.append_nil]
  exact hQ os _ ha

/-! ## The loops -/

open StationProgram

/-- **A record is offered to registrars.** -/
theorem meets_offerTo (record : BotRecord) (registrars : List (Registrar β))
    (s : StationState β σ) :
    Meets B patience s (offerTo record registrars) fun os r =>
      OfferedTo registrars record os ∧ Settles os r := by
  induction registrars generalizing s with
  | nil => exact meets_done ⟨offeredTo_nil record, .settled (by simp) rfl⟩
  | cons registrar rest ih =>
    simp only [Meets, offerTo, run, offers, answer, StationCall.offer?]
    have hkept : (s.onHub B patience (B.register registrar.run record)).2.station = s.station := rfl
    have breaksOff (o : Offer β) {s' : StationState β σ}
        {r : Option (Except Payload (Except StationError (Option RegisteredBot)))}
        (ho : o.Breaks r) (hs : s'.station = s.station) :
        s'.station = s.station.withBots (Offer.bots [o]) ∧
          OfferedTo (o.registrar :: rest) o.record [o] ∧ Settles [o] r := by
      refine ⟨?_, offeredTo_singleton ho.not_declined rest, ?_⟩
      · rw [Offer.bots_singleton_of_breaks ho, Station.withBots_nil, hs]
      · rw [← List.nil_append [o]]
        exact .brokenOff (List.forall_mem_nil _) ho
    -- only a mismatch goes on to the registrars that are left
    match hanswer : s.onHub B patience (B.register registrar.run record) with
    | (some (.ok (.ok id)), s') =>
      let o : Offer β := ⟨registrar, record, some (.ok (.ok id))⟩
      have ho : o.Accepted := ⟨id, rfl⟩
      rw [hanswer] at hkept
      refine ⟨?_, offeredTo_singleton ho.not_declined rest, ?_⟩
      · show s'.station.withBots _ = _
        rw [hkept]
        rfl
      · exact .settled (List.forall_mem_singleton.mpr (.inr ho)) rfl
    | (some (.ok (.error (.mismatch expected got))), s') =>
      let o : Offer β := ⟨registrar, record, some (.ok (.error (.mismatch expected got)))⟩
      have ho : o.Declined := ⟨expected, got, rfl⟩
      rw [hanswer] at hkept
      obtain ⟨hstation, hoffered, hsettles⟩ := ih s'
      refine ⟨?_, hoffered.cons ho rfl, hsettles.cons ho⟩
      show _ = s.station.withBots (Offer.bots (o :: offers B patience (offerTo record rest) s'))
      rw [hstation, hkept, Offer.bots_cons_of_declined ho]
    | (some (.ok (.error (.failed reason))), s') =>
      rw [hanswer] at hkept
      exact breaksOff ⟨registrar, record, some (.ok (.error (.failed reason)))⟩ (.failed rfl) hkept
    | (some (.error p), s') =>
      rw [hanswer] at hkept
      exact breaksOff ⟨registrar, record, some (.error p)⟩ (.panicked rfl) hkept
    | (none, s') =>
      rw [hanswer] at hkept
      exact breaksOff ⟨registrar, record, none⟩ (.givenUp rfl) hkept

theorem meets_registerBot (record : BotRecord) (s : StationState β σ) :
    Meets B patience s (registerBot record) fun os r =>
      OfferedTo s.station.registrars record os ∧ Settles os r :=
  meets_offerTo record s.station.registrars s

/-- **Records are offered one after the other.** -/
theorem meets_registerAll (records : List BotRecord) (s : StationState β σ) :
    Meets B patience s (registerAll records) (Enlists s.station.registrars records) := by
  induction records generalizing s with
  | nil => exact meets_done (.enlisted .nil (List.forall_mem_nil _))
  | cons record rest ih =>
    refine (meets_registerBot record s).bind_except Option.toList ?_ ?_ (by intro e; rfl)
    · exact fun os r hr hstops => hr.2.enlists hr.1 hstops rest _
    · rintro os bot s' ⟨hoffered, hsettles⟩ hstation
      cases hsettles with
      | settled answers bots =>
        have hrest := ih s'
        rw [hstation] at hrest
        refine hrest.map_except (bot.toList ++ ·) (fun os' r hr => ?_) (by intro r; cases r <;> rfl)
        rw [bots]
        exact hr.cons hoffered answers
      | brokenOff answers breaks => nomatch breaks

/-- **What is found in a directory is offered.** -/
theorem meets_loadBotsFrom (directory : String) (s : StationState β σ) :
    Meets B patience s (loadBotsFrom directory) fun os r =>
      (∃ e, s.station.Finds directory (.error e) ∧ os = [] ∧ r = some (.ok (.error (.record e)))) ∨
        ∃ records, s.station.Finds directory (.ok records) ∧
          Enlists s.station.registrars records os r := by
  let found := s.station.loader.loadDirectory s.station.surroundings.files
    s.station.surroundings.directory directory
  have hfinds : s.station.Finds directory found := RecordLoader.finds_loadDirectory _ _ _ _
  have hanswer : s.answer B patience (.load directory) = (some (.ok found), s) := rfl
  refine meets_call hanswer (fun _ => rfl) ?_
  match found, hfinds with
  | .error e, hfinds => exact meets_done (.inl ⟨e, hfinds, rfl, rfl⟩)
  | .ok records, hfinds =>
    exact (meets_registerAll records s).mono fun os r hr => .inr ⟨records, hfinds, hr⟩

/-- **Directories are taken one after the other.** -/
theorem meets_loadBots (directories : List String) (s : StationState β σ) :
    Meets B patience s (loadBots directories)
      (Loads s.station.registrars s.station.Finds directories) := by
  induction directories generalizing s with
  | nil => exact meets_done (.loaded .nil .nil (List.forall_mem_nil _))
  | cons directory rest ih =>
    refine (meets_loadBotsFrom directory s).bind_except id ?_ ?_ (by intro e; rfl)
    · rintro os r (⟨e, hfinds, rfl, rfl⟩ | ⟨records, hfinds, henlists⟩) hstops
      · rw [← List.nil_append (directory :: rest)]
        exact .spoiled .nil hfinds .nil (List.forall_mem_nil _)
      · exact henlists.loads hfinds hstops rest id
    · rintro os bots s' (⟨e, -, -, hr⟩ | ⟨records, hfinds, henlists⟩) hstation
      · cases hr
      · cases henlists with
        | enlisted offered answers =>
          have hrest := ih s'
          rw [hstation] at hrest
          exact hrest.map_except _ (fun os' r hr => hr.cons hfinds offered answers)
            (by intro r; cases r <;> rfl)
        | brokenOff offered answers breaks => nomatch breaks

/-- **Loading bots offers every record to the registrars in their order**, one
directory after the other and by the names of files inside a directory, until
one of them answers anything but a mismatch (`OfferedTo`), and makes no other
offer. The bots of the station are those it had before, followed by those of
the offers that were accepted, whatever the loading comes to: to exactly these
bots where all directories hold records (`Station.Finds`) and no offer breaks it
off; to the error of the first directory that does not hold records, none of
which is offered; or to what the first offer breaks off with that is neither
accepted nor declined, and this is the last one. -/
theorem loadBots_offers (B : StationCode β σ) (patience : Option Nat) (s : StationState β σ)
    (directories : List String) :
    let os := offers B patience (loadBots directories) s
    (run B patience (loadBots directories) s).2.station
        = { s.station with bots := s.station.bots ++ Offer.bots os } ∧
      Loads s.station.registrars s.station.Finds directories os
        (run B patience (loadBots directories) s).1 :=
  meets_loadBots directories s

end StationState

end Switchboard
