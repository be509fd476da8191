import Switchboard.Proofs.Config.Loading
import Switchboard.Proofs.Config.RoundTrip
import Switchboard.Proofs.Files.Path

/-!
# Loading what the program merges

A configuration says everything that the defaults say (`spans_default`), so laid over
them it leaves nothing of them, and it is read back as it is (`ofSetting_toSetting`).
If it is all there is to be loaded, it is what is loaded, or found fault with
(`load_merged`); and what has been loaded once is loaded again as it is (`load_again`).
-/

namespace Switchboard.Config

/-- **A configuration is all there is** besides the defaults: it is merged, no file is
named or found, and variables are not used. -/
structure Sources.IsOnly (s : Sources) (w : Surroundings) (c : Config) : Prop where
  merged : s.merged = [c]
  file : s.file = none
  notFound : ∀ p ∈ s.candidates w, w.leads p.variant = false ∧ w.leads p.base = false
  environment : s.useVariables = false

variable {s : Sources} {w : Surroundings} {c : Config}

/-- No file is taken. -/
theorem Sources.IsOnly.takes (only : s.IsOnly w c) : s.Takes w (.ok []) := by
  have hvariants : Sources.variants w (s.candidates w) = [] := by
    rw [Sources.variants, List.filter_eq_nil_iff]
    refine List.forall_mem_map.mpr fun p hp => ?_
    rw [(only.notFound p hp).1]
    exact Bool.false_ne_true
  exact .searched only.file (hvariants ▸ .none fun p hp => (only.notFound p hp).2)

/-- There are two layers, the defaults and what is merged. -/
theorem Sources.IsOnly.stacked (only : s.IsOnly w c) :
    Stacked s w [] [toSetting default, toSetting c] := by
  have hvariables : variableLayer s w = .ok [] := by
    rw [variableLayer, only.environment]
    rfl
  have hstacked := Stacked.intro .nil hvariables
  rwa [only.merged] at hstacked

/-- A configuration leaves nothing of the defaults. -/
theorem layered_default (c : Config) :
    Setting.layered [toSetting default, toSetting c] = toSetting c := by
  have hordered : ∀ c : Config, (toSetting c).Ordered := fun c => Setting.ordered_ofJson _
  calc Setting.layered [toSetting default, toSetting c]
      = Setting.cover (toSetting c) (Setting.cover (toSetting default) .empty) := rfl
    _ = Setting.cover (toSetting c) (toSetting default) := by
      rw [Setting.cover_empty (hordered default)]
    _ = toSetting c :=
      Setting.cover_of_spans (spans_default c) (hordered c) (hordered default)

/-- **What is loaded is the configuration that is merged**, unless it is found fault with. -/
theorem Sources.IsOnly.load_eq (only : s.IsOnly w c) (h : Json.InOrder c.logging.filters) :
    load s w = (c.validate.mapError .invalid).map fun _ => c := by
  have hload := loadsTo_iff.mp (.extracted only.takes only.stacked)
  rw [hload, layered_default, extract, ofSetting_toSetting h]
  rfl

/-- **A configuration is valid** exactly if its log has a file if it goes to one, every module
has a character that is not blank, and its directories have names and are different
paths. -/
theorem valid_iff : c.Valid ↔
    (c.logging.output = .file → ∃ p, c.logging.filePath = some p) ∧
      (∀ m ∈ c.logging.filters, ∃ ch ∈ m.1.toList, ch ∉ Text.blankChars) ∧
      (∀ d ∈ c.bots.directories, d ≠ "") ∧
      c.bots.directories.Pairwise fun d e => Path.same d e = false := by
  have hfile : c.logging.filePath ≠ none ↔ ∃ p, c.logging.filePath = some p :=
    Option.ne_none_iff_exists'
  have hsame : ∀ d e, Path.parts d ≠ Path.parts e ↔ Path.same d e = false := by
    intro d e
    rw [Path.same, beq_eq_false_iff_ne]
  constructor
  · intro h
    refine ⟨fun hout => hfile.mp (h.logFile hout), fun m hm => ?_, h.directories, ?_⟩
    · exact (Text.isBlank_eq_false_iff_exists m.1).mp (h.modules m hm)
    · exact h.distinct.imp fun {d e} => (hsame d e).mp
  · rintro ⟨hlog, hmodules, hdirectories, hdistinct⟩
    refine ⟨fun hout => hfile.mpr (hlog hout), fun m hm => ?_, hdirectories, ?_⟩
    · exact (Text.isBlank_eq_false_iff_exists m.1).mpr (hmodules m hm)
    · exact hdistinct.imp fun {d e} => (hsame d e).mpr

/-- Two directories that are the same path but for a slash are one too many. -/
theorem not_valid_of_slash {d : String} (hd : d ∈ c.bots.directories)
    (hslash : d ++ "/" ∈ c.bots.directories) : ¬c.Valid := by
  intro h
  have : Std.Symm fun d e => Path.parts d ≠ Path.parts e := ⟨fun _ _ => Ne.symm⟩
  have hne : d ≠ d ++ "/" := by
    intro heq
    have hlength := congrArg String.length heq
    rw [String.length_append] at hlength
    exact absurd hlength (Nat.lt_add_of_pos_right Nat.one_pos).ne
  have hsame := Path.same_append_slash (h.directories d hd)
  exact h.distinct.forall hd hslash hne (beq_iff_eq.mp hsame)

/-- **What has been loaded is loaded again as it is**, wherever it came from, if it is merged and
is all there is. -/
theorem load_again {s' : Sources} {w' : Surroundings} (h : load s w = .ok c)
    (only : s'.IsOnly w' c) : load s' w' = .ok c := by
  have hextract : ∃ m, extract m = .ok c := by
    generalize hr : Except.ok c = r at h
    cases loadsTo_iff.mpr h with
    | extracted takes stacked => exact ⟨_, rfl⟩
    | _ => cases hr
  obtain ⟨m, hm⟩ := hextract
  obtain ⟨hread, hvalid⟩ := extract_ok_iff.mp hm
  rw [only.load_eq (inOrder_of_ofSetting hread), (validate_eq_ok_iff c).mpr hvalid]
  rfl

/-- **A configuration comes back as it is.** If it is merged and is all there is to be loaded,
then loading gives this configuration if it is valid, and otherwise a fault of it. The levels of
modules are a map, which is kept in the order of the names (`inOrder_of_ofSetting`). -/
theorem load_merged (only : s.IsOnly w c) (filters : Json.InOrder c.logging.filters) :
    (c.Valid → load s w = .ok c) ∧
      (¬c.Valid → ∃ f, c.validate = .error f ∧ load s w = .error (.invalid f)) ∧
      (c.Valid ↔
        (c.logging.output = .file → ∃ p, c.logging.filePath = some p) ∧
          (∀ m ∈ c.logging.filters, ∃ ch ∈ m.1.toList, ch ∉ Text.blankChars) ∧
          (∀ d ∈ c.bots.directories, d ≠ "") ∧
          c.bots.directories.Pairwise fun d e => Path.same d e = false) ∧
      ∀ d ∈ c.bots.directories, d ++ "/" ∈ c.bots.directories → ¬c.Valid := by
  have hload := only.load_eq filters
  refine ⟨fun hvalid => ?_, fun hnot => ?_, valid_iff, fun d => not_valid_of_slash⟩
  · rw [hload, (validate_eq_ok_iff c).mpr hvalid]
    rfl
  · cases hvalidate : c.validate with
    | ok u => exact absurd ((validate_eq_ok_iff c).mp hvalidate) hnot
    | error f =>
      rw [hvalidate] at hload
      exact ⟨f, rfl, hload⟩

/-- One configuration is merged, and nothing else is to be found in one directory. -/
def Sources.merging (c : Config) : Sources := ⟨.development, ["/a"], none, [c], false⟩

/-- A root directory with nothing in it. -/
def Surroundings.bare : Surroundings := ⟨.emptyDirectory, [], "/", []⟩

/-- Nothing is where the defaults have something, and the other way round. -/
def sparse : Config :=
  ⟨{ LoggingConfig.default with filters := [("chime", .debug), ("hub", .trace)] }, ⟨false⟩,
    ⟨true, []⟩⟩

/-- One directory is given twice. -/
def doubled : Config := ⟨.default, .default, ⟨true, ["bots", "bots/"]⟩⟩

theorem isOnly_merging (c : Config) : (Sources.merging c).IsOnly .bare c := by
  refine ⟨rfl, rfl, ?_, rfl⟩
  -- the candidates are the same whatever is merged
  show ∀ p ∈ (Sources.merging default).candidates .bare,
    Surroundings.bare.leads p.variant = false ∧ Surroundings.bare.leads p.base = false
  decide +kernel

/-- An empty list is not taken for the default one, and two levels of modules stay in their order;
two spellings of a directory are a fault. -/
theorem load_merged_sparse :
    load (.merging sparse) .bare = .ok sparse ∧
      load (.merging doubled) .bare = .error (.invalid (.repeatedDirectory "bots/")) := by
  have hsparse : sparse.Valid := (validate_eq_ok_iff _).mp (by decide +kernel)
  have hnames : ["chime", "hub"].Pairwise (· < ·) := by decide
  obtain ⟨hload, -, -, -⟩ :=
    load_merged (isOnly_merging sparse) (Json.inOrder_of_names hnames rfl)
  obtain ⟨-, hfault, -, hslash⟩ := load_merged (isOnly_merging doubled) .nil
  obtain ⟨f, hf, hinvalid⟩ := hfault (hslash "bots" List.mem_cons_self (by decide))
  have hrepeated : doubled.validate = .error (.repeatedDirectory "bots/") := by decide +kernel
  obtain rfl := Except.error.inj (hf.symm.trans hrepeated)
  exact ⟨hload hsparse, hinvalid⟩

end Switchboard.Config
