import Switchboard.Config.Basic
import Switchboard.Proofs.Setting.Records
import Switchboard.Proofs.Setting.RoundTrip

/-!
# Reading a configuration back

The setting that says all of a configuration is read as this configuration
(`Config.ofSetting_toSetting`). Every record says all of its fields, so that none is left as
it is by default.

The levels of modules are a map, kept in the order of the names. Every configuration that is
read has them in order (`Config.inOrder_of_ofSetting`).
-/

namespace Switchboard

open Json (InOrder inOrder_of_names)
open Setting (reading fillByName_cons record_ofJson)

@[simp] theorem LogLevel.read_name (l : LogLevel) :
    LogLevel.read reading (.ofJson (.str l.name)) = .ok l := by
  cases l <;> rfl

@[simp] theorem LogFormat.read_name (f : LogFormat) :
    LogFormat.read reading (.ofJson (.str f.name)) = .ok f := by
  cases f <;> rfl

@[simp] theorem LogOutput.read_name (o : LogOutput) :
    LogOutput.read reading (.ofJson (.str o.name)) = .ok o := by
  cases o <;> rfl

@[simp] theorem SpanEvents.read_toJson (e : SpanEvents) :
    SpanEvents.read reading (.ofJson e.toJson) = .ok e := by
  have hnames : ["close", "enter", "exit", "new"].Pairwise (· < ·) := by decide
  rw [SpanEvents.read, toJson, record_ofJson (inOrder_of_names hnames rfl)]
  simp [fillByName_cons, Except.map, Except.bind]

@[simp] theorem LoggingConfig.read_toJson {c : LoggingConfig} (h : InOrder c.filters) :
    LoggingConfig.read reading (.ofJson c.toJson) = .ok c := by
  have hfilters := Setting.table_ofJson LogLevel.read_name h
  have hnames : ["file_location", "file_path", "filters", "format", "level", "output",
      "span_events", "thread_ids"].Pairwise (· < ·) := by decide
  rw [LoggingConfig.read, toJson, record_ofJson (inOrder_of_names hnames rfl)]
  simp [fillByName_cons, fields, readField, hfilters, h.ordered_eq, Except.map, Except.bind]

@[simp] theorem DispatchSettings.read_toJson (s : DispatchSettings) :
    DispatchSettings.read reading (.ofJson s.toJson) = .ok s := by
  have hnames : ["catch_panics"].Pairwise (· < ·) := by decide
  rw [DispatchSettings.read, toJson, record_ofJson (inOrder_of_names hnames rfl)]
  simp [fillByName_cons, Except.map, Except.bind]

@[simp] theorem BotsConfig.read_toJson (c : BotsConfig) :
    BotsConfig.read reading (.ofJson c.toJson) = .ok c := by
  have hdirectories := Setting.list_ofJson Setting.path_ofJson c.directories
  have hnames : ["auto_load", "directories"].Pairwise (· < ·) := by decide
  rw [BotsConfig.read, toJson, record_ofJson (inOrder_of_names hnames rfl)]
  simp [fillByName_cons, hdirectories, Except.map, Except.bind]

/-- **A configuration is read back from what it says.** -/
theorem Config.ofSetting_toSetting {c : Config} (h : InOrder c.logging.filters) :
    ofSetting c.toSetting = .ok c := by
  have hnames : ["bots", "dispatch", "logging"].Pairwise (· < ·) := by decide
  rw [ofSetting, toSetting, toJson, Config.read, record_ofJson (inOrder_of_names hnames rfl)]
  simp [fillByName_cons, h, Except.map, Except.bind]

/-! ## The levels of modules -/

theorem LoggingConfig.inOrder_of_read {s : Setting} {c : LoggingConfig}
    (h : LoggingConfig.read reading s = .ok c) : InOrder c.filters := by
  have hstart : InOrder LoggingConfig.default.filters := .nil
  refine Setting.record_keeps (P := fun c => InOrder c.filters) (fun name v a b hset ha => ?_)
    hstart h
  unfold readField at hset
  -- all fields but the last leave the levels as they are
  repeat' split at hset
  all_goals obtain ⟨x, -, rfl⟩ := map_eq_ok_iff.mp hset
  all_goals first | exact ha | exact (Json.ordered_inOrder x).1

/-- **A configuration that is read has the levels of modules in order.** -/
theorem Config.inOrder_of_ofSetting {s : Setting} {c : Config} (h : ofSetting s = .ok c) :
    InOrder c.logging.filters := by
  have hstart : InOrder default.logging.filters := .nil
  refine Setting.record_keeps (P := fun c => InOrder c.logging.filters)
    (fun name v a b hset ha => ?_) hstart h
  split at hset
  · obtain ⟨x, hx, rfl⟩ := map_eq_ok_iff.mp hset
    exact LoggingConfig.inOrder_of_read hx
  · split at hset
    all_goals
      obtain ⟨x, -, rfl⟩ := map_eq_ok_iff.mp hset
      exact ha

end Switchboard
