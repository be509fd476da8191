import Switchboard.Config.Basic
import Switchboard.Proofs.Setting.Records

/-!
# The fields of a configuration

A configuration is a record of records. What a field has in the configuration a
setting says is what is read from the end of its chain of names, whatever else the
setting says, and what it has by default if nothing is said on the way
(`Config.IsField.readsAt`).

The fields of each record are the constructors of a predicate, which gives for
every field its name, how it is read, and what it is.
-/

namespace Switchboard

open Setting (Read ReadsAt Sets reading)

variable {β : Type} {name : String} {part : Setting → Read β}

/-! ## The records -/

/-- **The fields of the events that are logged.** -/
inductive SpanEvents.IsField : {β : Type} → String → (Setting → Read β) → (SpanEvents → β) → Prop
  | new : IsField "new" reading.bool (·.new)
  | enter : IsField "enter" reading.bool (·.enter)
  | exit : IsField "exit" reading.bool (·.exit)
  | close : IsField "close" reading.bool (·.close)

/-- **The fields of the configuration of the log.** -/
inductive LoggingConfig.IsField :
    {β : Type} → String → (Setting → Read β) → (LoggingConfig → β) → Prop
  | level : IsField "level" (LogLevel.read reading) (·.level)
  | format : IsField "format" (LogFormat.read reading) (·.format)
  | output : IsField "output" (LogOutput.read reading) (·.output)
  | filePath : IsField "file_path" (reading.optional reading.path) (·.filePath)
  | threadIds : IsField "thread_ids" reading.bool (·.threadIds)
  | fileLocation : IsField "file_location" reading.bool (·.fileLocation)
  | spanEvents : IsField "span_events" (SpanEvents.read reading) (·.spanEvents)
  | filters : IsField "filters"
      (fun s => (reading.table (LogLevel.read reading) s).map Json.ordered) (·.filters)

/-- **The fields of the settings of dispatches.** -/
inductive DispatchSettings.IsField :
    {β : Type} → String → (Setting → Read β) → (DispatchSettings → β) → Prop
  | catchPanics : IsField "catch_panics" reading.bool (·.catchPanics)

/-- **The fields of the configuration of bots.** -/
inductive BotsConfig.IsField : {β : Type} → String → (Setting → Read β) → (BotsConfig → β) → Prop
  | autoLoad : IsField "auto_load" reading.bool (·.autoLoad)
  | directories : IsField "directories" (reading.list reading.path) (·.directories)

/-- **The records in a configuration.** -/
inductive Config.IsRecord : {β : Type} → String → (Setting → Read β) → (Config → β) → Prop
  | logging : IsRecord "logging" (LoggingConfig.read reading) (·.logging)
  | dispatch : IsRecord "dispatch" (DispatchSettings.read reading) (·.dispatch)
  | bots : IsRecord "bots" (BotsConfig.read reading) (·.bots)

/-- **The fields of a configuration**, the levels of single modules among them. -/
inductive Config.IsField : {β : Type} → List String → (Setting → Read β) → (Config → β) → Prop
  | record {β : Type} {name : String} {part : Setting → Read β} {get : Config → β}
      (h : Config.IsRecord name part get) : IsField [name] part get
  | logging {β : Type} {name : String} {part : Setting → Read β} {get : LoggingConfig → β}
      (h : LoggingConfig.IsField name part get) :
      IsField ["logging", name] part fun c => get c.logging
  | spanEvents {β : Type} {name : String} {part : Setting → Read β} {get : SpanEvents → β}
      (h : SpanEvents.IsField name part get) :
      IsField ["logging", "span_events", name] part fun c => get c.logging.spanEvents
  | module (name : String) :
      IsField ["logging", "filters", name] (fun s => (LogLevel.read reading s).map some)
        fun c => Json.member? name c.logging.filters
  | dispatch {β : Type} {name : String} {part : Setting → Read β} {get : DispatchSettings → β}
      (h : DispatchSettings.IsField name part get) :
      IsField ["dispatch", name] part fun c => get c.dispatch
  | bots {β : Type} {name : String} {part : Setting → Read β} {get : BotsConfig → β}
      (h : BotsConfig.IsField name part get) : IsField ["bots", name] part fun c => get c.bots

theorem Config.IsField.exists_cons {chain : List String} {get : Config → β}
    (h : Config.IsField chain part get) : ∃ name rest, chain = name :: rest := by
  cases h <;> exact ⟨_, _, rfl⟩

/-! ## Fields are read from their names -/

section Put

variable {α γ : Type} {r : Read γ} {put : γ → α} {a b : α}

/-- What is put into a record is what was read. -/
theorem eq_ok_of_map {get : α → γ} (h : r.map put = .ok b) (hget : ∀ x, get (put x) = x) :
    r = .ok (get b) := by
  obtain ⟨x, hx, rfl⟩ := map_eq_ok_iff.mp h
  rw [hget, hx]

/-- What is put into a record leaves the rest of it as it is. -/
theorem get_eq_of_map {get : α → β} (h : r.map put = .ok b) (hget : ∀ x, get (put x) = get a) :
    get b = get a := by
  obtain ⟨x, -, rfl⟩ := map_eq_ok_iff.mp h
  exact hget x

end Put

theorem SpanEvents.IsField.readsAt {get : SpanEvents → β} (h : SpanEvents.IsField name part get) :
    ReadsAt (SpanEvents.read reading) .none [name] part get := by
  refine Sets.readsAt ⟨by cases h <;> decide, fun h' => ?_, ?_⟩ _ _
  · cases h <;> exact eq_ok_of_map h' fun _ => rfl
  · simp only [List.forall_mem_cons]
    refine ⟨?_, ?_, ?_, ?_, List.forall_mem_nil _⟩
    all_goals
      refine fun hne s a b h' => get_eq_of_map h' fun x => ?_
      cases h <;> first | rfl | exact absurd rfl hne

theorem LoggingConfig.IsField.readsAt {get : LoggingConfig → β}
    (h : LoggingConfig.IsField name part get) :
    ReadsAt (LoggingConfig.read reading) .default [name] part get := by
  refine Sets.readsAt ⟨by cases h <;> decide, fun h' => ?_, ?_⟩ _ _
  · cases h with
    | filters =>
      obtain ⟨x, hx, rfl⟩ := map_eq_ok_iff.mp h'
      exact map_eq_ok_iff.mpr ⟨x, hx, rfl⟩
    | _ => exact eq_ok_of_map h' fun _ => rfl
  · simp only [LoggingConfig.fields, List.forall_mem_cons]
    refine ⟨?_, ?_, ?_, ?_, ?_, ?_, ?_, ?_, List.forall_mem_nil _⟩
    all_goals
      refine fun hne s a b h' => get_eq_of_map h' fun x => ?_
      cases h <;> first | rfl | exact absurd rfl hne

theorem DispatchSettings.IsField.readsAt {get : DispatchSettings → β}
    (h : DispatchSettings.IsField name part get) :
    ReadsAt (DispatchSettings.read reading) .default [name] part get := by
  cases h
  refine Sets.readsAt ⟨by decide, fun h' => ?_, ?_⟩ _ _
  · exact eq_ok_of_map h' fun _ => rfl
  · exact List.forall_mem_singleton.mpr fun hne => absurd rfl hne

theorem BotsConfig.IsField.readsAt {get : BotsConfig → β} (h : BotsConfig.IsField name part get) :
    ReadsAt (BotsConfig.read reading) .default [name] part get := by
  refine Sets.readsAt ⟨by cases h <;> decide, fun h' => ?_, ?_⟩ _ _
  · cases h <;> exact eq_ok_of_map h' fun _ => rfl
  · simp only [List.forall_mem_cons]
    refine ⟨?_, ?_, List.forall_mem_nil _⟩
    all_goals
      refine fun hne s a b h' => get_eq_of_map h' fun x => ?_
      cases h <;> first | rfl | exact absurd rfl hne

theorem Config.IsRecord.readsAt {get : Config → β} (h : Config.IsRecord name part get) :
    ReadsAt Config.ofSetting .default [name] part get := by
  refine Sets.readsAt ⟨by cases h <;> decide, fun h' => ?_, ?_⟩ _ _
  · cases h <;> exact eq_ok_of_map h' fun _ => rfl
  · simp only [List.forall_mem_cons]
    refine ⟨?_, ?_, ?_, List.forall_mem_nil _⟩
    all_goals
      refine fun hne s a b h' => get_eq_of_map h' fun x => ?_
      cases h <;> first | rfl | exact absurd rfl hne

/-- **A field of a configuration is read from the end of its chain**, and has its
default if nothing is said on the way. -/
theorem Config.IsField.readsAt {chain : List String} {get : Config → β}
    (h : Config.IsField chain part get) : ReadsAt Config.ofSetting .default chain part get := by
  cases h with
  | record h => exact h.readsAt
  | logging h => exact IsRecord.logging.readsAt.trans h.readsAt
  | spanEvents h =>
    exact IsRecord.logging.readsAt.trans (LoggingConfig.IsField.spanEvents.readsAt.trans h.readsAt)
  | module name =>
    exact IsRecord.logging.readsAt.trans
      (LoggingConfig.IsField.filters.readsAt.trans (Setting.readsAt_table _ name))
  | dispatch h => exact IsRecord.dispatch.readsAt.trans h.readsAt
  | bots h => exact IsRecord.bots.readsAt.trans h.readsAt

end Switchboard
