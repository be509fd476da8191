import Switchboard.Config.Basic
import Switchboard.Files.Path
import Switchboard.Text.Blank

/-!
# Valid configurations

A configuration can be well formed and still make no sense. `validate`
finds the first thing that is wrong with it; a configuration with which
nothing is wrong is `Valid`, and `validate_eq_ok_iff` says that these are
the same.
-/

namespace Switchboard

/-- What is wrong with a configuration. -/
inductive ConfigFault where
  /-- The log goes to a file, but it is not said to which. -/
  | noLogFile
  /-- A level is given for a module without a name. -/
  | blankModule (name : String)
  /-- A directory has no name. -/
  | emptyDirectory
  /-- A directory is given twice. -/
  | repeatedDirectory (name : String)
deriving DecidableEq, Repr

namespace ConfigFault

/-- The fault as a text. -/
def text : ConfigFault → String
  | noLogFile => "logging.file_path is required when logging.output is 'file'"
  | blankModule name => "Invalid module filter: '" ++ name ++ "'"
  | emptyDirectory => "bots.directories cannot contain an empty path"
  | repeatedDirectory name => "Duplicate bot directory: " ++ name

/-- The message for a configuration with this fault. -/
def message (f : ConfigFault) : String := "Invalid configuration: " ++ f.text

end ConfigFault

namespace LoggingConfig

/-- What is wrong with the configuration of the log, if anything. -/
def fault? (c : LoggingConfig) : Option ConfigFault :=
  if c.output = .file ∧ c.filePath = none then some .noLogFile
  else (c.filters.find? fun m => Text.isBlank m.1).map fun m => .blankModule m.1

end LoggingConfig

namespace BotsConfig

/-- What is wrong with directories that come behind others, if anything. -/
def directoryFault? (seen : List String) : List String → Option ConfigFault
  | [] => none
  | d :: rest =>
    if d = "" then some .emptyDirectory
    else if seen.any (Path.same d) then some (.repeatedDirectory d)
    else directoryFault? (d :: seen) rest

/-- What is wrong with the configuration of bots, if anything. -/
def fault? (c : BotsConfig) : Option ConfigFault := directoryFault? [] c.directories

end BotsConfig

namespace Config

/-- The first thing that is wrong with a configuration, if anything. -/
def fault? (c : Config) : Option ConfigFault := c.logging.fault?.or c.bots.fault?

/-- **Checks a configuration.** -/
def validate (c : Config) : Except ConfigFault Unit :=
  match c.fault? with
  | none => .ok ()
  | some f => .error f

/-- **A configuration with which nothing is wrong**: a log that goes to a
file has one, no module is blank, and the directories have names that lead
to different places. -/
structure Valid (c : Config) : Prop where
  logFile : c.logging.output = .file → c.logging.filePath ≠ none
  modules : ∀ m ∈ c.logging.filters, Text.isBlank m.1 = false
  directories : ∀ d ∈ c.bots.directories, d ≠ ""
  distinct : c.bots.directories.Pairwise fun d e => Path.parts d ≠ Path.parts e

/-- Nothing is wrong with directories exactly if they are named, differ
from those before them and from each other. -/
theorem directoryFault?_eq_none_iff (seen ds : List String) :
    BotsConfig.directoryFault? seen ds = none ↔
      (∀ d ∈ ds, d ≠ "") ∧ (∀ d ∈ ds, ∀ e ∈ seen, Path.parts d ≠ Path.parts e) ∧
        ds.Pairwise fun d e => Path.parts d ≠ Path.parts e := by
  induction ds generalizing seen with
  | nil => simp [BotsConfig.directoryFault?]
  | cons d rest ih =>
    simp only [BotsConfig.directoryFault?]
    split
    · next h => simp [h]
    · next h =>
      split
      · next hs =>
        obtain ⟨e, he, hde⟩ := List.any_eq_true.1 hs
        have : Path.parts d = Path.parts e := by simpa [Path.same] using hde
        constructor
        · intro hc; cases hc
        · intro hc; exact absurd this (hc.2.1 d List.mem_cons_self e he)
      · next hs =>
        have hs' : ∀ e ∈ seen, Path.parts d ≠ Path.parts e := by
          intro e he hc
          exact hs (List.any_eq_true.2 ⟨e, he, by simpa [Path.same] using hc⟩)
        rw [ih]
        constructor
        · rintro ⟨h1, h2, h3⟩
          refine ⟨?_, ?_, List.pairwise_cons.2 ⟨?_, h3⟩⟩
          · intro x hx
            rcases List.mem_cons.1 hx with rfl | hx
            · exact h
            · exact h1 x hx
          · intro x hx e he
            rcases List.mem_cons.1 hx with rfl | hx
            · exact hs' e he
            · exact h2 x hx e (List.mem_cons_of_mem _ he)
          · intro x hx hc
            exact h2 x hx d List.mem_cons_self hc.symm
        · rintro ⟨h1, h2, h3⟩
          obtain ⟨h3, h4⟩ := List.pairwise_cons.1 h3
          refine ⟨fun x hx => h1 x (List.mem_cons_of_mem _ hx), ?_, h4⟩
          intro x hx e he
          rcases List.mem_cons.1 he with rfl | he
          · exact fun hc => h3 x hx hc.symm
          · exact h2 x (List.mem_cons_of_mem _ hx) e he

/-- **Checking succeeds for the valid configurations and no others.** -/
theorem validate_eq_ok_iff (c : Config) : c.validate = .ok () ↔ c.Valid := by
  have hbots := directoryFault?_eq_none_iff [] c.bots.directories
  have hlog : c.logging.fault? = none ↔
      (c.logging.output = .file → c.logging.filePath ≠ none) ∧
        ∀ m ∈ c.logging.filters, Text.isBlank m.1 = false := by
    unfold LoggingConfig.fault?
    split
    · next h => simp [h.1, h.2]
    · next h => simp only [Option.map_eq_none_iff, List.find?_eq_none]; grind
  have key : c.validate = .ok () ↔ c.fault? = none := by
    unfold validate
    cases c.fault? <;> simp
  rw [key, fault?, Option.or_eq_none_iff, hlog, BotsConfig.fault?, hbots]
  constructor
  · rintro ⟨⟨h1, h2⟩, h3, _, h4⟩
    exact ⟨h1, h2, h3, h4⟩
  · rintro ⟨h1, h2, h3, h4⟩
    exact ⟨⟨h1, h2⟩, h3, by simp, h4⟩

end Config

end Switchboard
