import Mathlib
import Switchboard.Proofs.Config.Fields
import Switchboard.Proofs.Config.Search
import Switchboard.Proofs.Setting.Grouping
import Switchboard.Proofs.Toml.Ordered

/-!
# Loading a configuration

What is loaded is taken from the layers laid over each other: the defaults, the
configurations that are merged, the files that are taken (`Sources.Takes`), and
the variables (`Stacked`). Each setting is that of the highest layer that says
anything about it (`load_layered`).
-/

namespace Switchboard.Config

/-- **The configuration that a setting says**, which must be valid. -/
def extract (m : Setting) : Except LoadError Config := do
  let c ← (ofSetting m).mapError .setting
  (validate c).mapError .invalid
  return c

/-- **The layers of a configuration**, the lowest first: the defaults, the
configurations that are merged in their order, what the files say that are
taken, and what the variables say if they are used. -/
inductive Stacked (s : Sources) (w : Surroundings) (paths : List String) : List Setting → Prop
  | intro {fs vs : List Setting}
      (files : List.Forall₂ (fun p layer => fileSetting? w p = some layer) paths fs)
      (environment : variableLayer s w = .ok vs) :
      Stacked s w paths ((default :: s.merged).map toSetting ++ fs ++ vs)

/-- **What loading a configuration comes to.** -/
inductive LoadsTo (s : Sources) (w : Surroundings) : Except LoadError Config → Prop
  | extracted {paths : List String} {ls : List Setting} (takes : s.Takes w (.ok paths))
      (stacked : Stacked s w paths ls) : LoadsTo s w (extract (.layered ls))
  /-- The files cannot be taken. -/
  | notTaken {e : LoadError} (takes : s.Takes w (.error e)) : LoadsTo s w (.error e)
  /-- The variables say nothing that is a table. -/
  | nameless {paths : List String} {e : LoadError} (takes : s.Takes w (.ok paths))
      (environment : variableLayer s w = .error e) : LoadsTo s w (.error e)
  /-- A file that is taken cannot be read. -/
  | unreadable {paths : List String} {vs : List Setting} {p : String}
      (takes : s.Takes w (.ok paths)) (environment : variableLayer s w = .ok vs)
      (taken : p ∈ paths) (file : fileSetting? w p = none) :
      LoadsTo s w (.error (.setting ⟨[], .unreadable⟩))

variable {s : Sources} {w w' : Surroundings} {paths : List String} {ls : List Setting}

/-! ## The layers -/

/-- Every configuration says all that the default one says. -/
theorem spans_default (c : Config) : (toSetting c).Spans (toSetting default) := by
  have hplain : ∀ {v w : Json}, (∀ ms, w ≠ .obj ms) →
      (Setting.ofJson v).Spans (Setting.ofJson w) := by
    intro v w hw
    refine .onPlain fun fs => ?_
    cases w with
    | obj ms => exact absurd rfl (hw ms)
    | _ => rw [Setting.ofJson]; rintro ⟨⟩
  have hfilters : ∀ ms, (Setting.ofJson (.obj ms)).Spans (Setting.ofJson (.obj [])) := by
    intro ms
    rw [Setting.ofJson, Setting.ofJson]
    exact .onTable (fun name _ => rfl) fun name s below _ hbelow => nomatch hbelow
  have hspans : (Setting.ofJson c.logging.spanEvents.toJson).Spans
      (Setting.ofJson SpanEvents.none.toJson) :=
    Setting.spans_obj (.cons ⟨rfl, hplain nofun⟩ (.cons ⟨rfl, hplain nofun⟩
      (.cons ⟨rfl, hplain nofun⟩ (.cons ⟨rfl, hplain nofun⟩ .nil))))
  have hlogging : (Setting.ofJson c.logging.toJson).Spans
      (Setting.ofJson LoggingConfig.default.toJson) :=
    Setting.spans_obj (.cons ⟨rfl, hplain nofun⟩ (.cons ⟨rfl, hplain nofun⟩
      (.cons ⟨rfl, hfilters _⟩ (.cons ⟨rfl, hplain nofun⟩ (.cons ⟨rfl, hplain nofun⟩
        (.cons ⟨rfl, hplain nofun⟩ (.cons ⟨rfl, hspans⟩ (.cons ⟨rfl, hplain nofun⟩ .nil))))))))
  have hdispatch : (Setting.ofJson c.dispatch.toJson).Spans
      (Setting.ofJson DispatchSettings.default.toJson) :=
    Setting.spans_obj (.cons ⟨rfl, hplain nofun⟩ .nil)
  have hbots : (Setting.ofJson c.bots.toJson).Spans (Setting.ofJson BotsConfig.default.toJson) :=
    Setting.spans_obj (.cons ⟨rfl, hplain nofun⟩ (.cons ⟨rfl, hplain nofun⟩ .nil))
  exact Setting.spans_obj
    (.cons ⟨rfl, hbots⟩ (.cons ⟨rfl, hdispatch⟩ (.cons ⟨rfl, hlogging⟩ .nil)))

/-- **What the program merges may be laid over the defaults one by one.** -/
theorem layered_layers (s : Sources) (fs vs : List Setting) :
    Setting.layered (layers s fs vs) =
      .layered ((default :: s.merged).map toSetting ++ fs ++ vs) := by
  have hordered : (toSetting default).Ordered := Setting.ordered_ofJson _
  have hfits : ∀ m ∈ s.merged.map toSetting, m.Ordered ∧ m.Fits (toSetting default) := by
    intro m hm
    obtain ⟨c, -, rfl⟩ := List.mem_map.mp hm
    exact ⟨Setting.ordered_ofJson _, (spans_default c).fits⟩
  obtain ⟨es, hes⟩ : ∃ es, toSetting default = .table es := ⟨_, Setting.ofJson.eq_def _⟩
  rw [hes] at hordered hfits
  rw [layers, Sources.mergedLayer, hes, List.append_assoc, Setting.layered_group hordered hfits,
    List.map_cons, hes, List.append_assoc]

theorem load_eq (s : Sources) (w : Surroundings) :
    load s w = (s.paths w).bind fun ps => (variableLayer s w).bind fun vs =>
      ((fileSettings w ps).mapError .setting).bind fun fs => extract (.layered (layers s fs vs)) :=
  rfl

/-- A file says what its text says. -/
theorem fileSetting?_of_text {w : Surroundings} {p text : String}
    (h : w.content? p = some (.ok (Text.Utf8.encode text))) :
    fileSetting? w p = Toml.read? text := by
  rw [fileSetting?, h]
  exact congrArg (·.bind Toml.read?) (Text.Utf8.decode?_encode text)

theorem fileSettings_ok_iff {fs : List Setting} :
    fileSettings w paths = .ok fs ↔
      List.Forall₂ (fun p layer => fileSetting? w p = some layer) paths fs := by
  rw [← mapM_eq_some_iff, fileSettings]
  cases paths.mapM (fileSetting? w) <;> simp

theorem fileSettings_error_iff {e : SettingError} :
    fileSettings w paths = .error e ↔
      (∃ p ∈ paths, fileSetting? w p = none) ∧ e = ⟨[], .unreadable⟩ := by
  rw [← mapM_eq_none_iff, fileSettings]
  cases paths.mapM (fileSetting? w) <;> simp [eq_comm]

/-- **Loading comes to one thing**, and this is it. -/
theorem loadsTo_iff {r : Except LoadError Config} : LoadsTo s w r ↔ load s w = r := by
  rw [load_eq]
  constructor
  · intro h
    cases h with
    | extracted takes stacked =>
      obtain ⟨files, environment⟩ := stacked
      simp only [Sources.takes_iff.mp takes, environment, fileSettings_ok_iff.mpr files,
        Except.bind, Except.mapError, layered_layers]
    | notTaken takes => simp only [Sources.takes_iff.mp takes, Except.bind]
    | nameless takes environment =>
      simp only [Sources.takes_iff.mp takes, environment, Except.bind]
    | unreadable takes environment taken file =>
      have hfiles := fileSettings_error_iff.mpr ⟨⟨_, taken, file⟩, rfl⟩
      simp only [Sources.takes_iff.mp takes, environment, hfiles, Except.bind, Except.mapError]
  · rintro rfl
    cases hpaths : s.paths w with
    | error e => exact .notTaken (Sources.takes_iff.mpr hpaths)
    | ok ps =>
      have takes := Sources.takes_iff.mpr hpaths
      cases environment : variableLayer s w with
      | error e => exact .nameless takes environment
      | ok vs =>
        cases hfiles : fileSettings w ps with
        | ok fs =>
          have stacked := Stacked.intro (fileSettings_ok_iff.mp hfiles) environment
          simpa only [Except.bind, hfiles, Except.mapError, layered_layers] using
            LoadsTo.extracted takes stacked
        | error e =>
          obtain ⟨⟨p, taken, file⟩, rfl⟩ := fileSettings_error_iff.mp hfiles
          simpa only [Except.bind, hfiles, Except.mapError] using
            LoadsTo.unreadable takes environment taken file

/-- **All layers are in order.** -/
theorem Stacked.ordered (h : Stacked s w paths ls) : ∀ l ∈ ls, l.Ordered := by
  obtain ⟨files, environment⟩ := h
  have hfile : ∀ p l, fileSetting? w p = some l → l.Ordered := by
    intro p l h
    unfold fileSetting? at h
    split at h
    · exact Option.some.inj h ▸ Setting.ordered_empty
    · obtain ⟨text, -, hread⟩ := Option.bind_eq_some_iff.mp h
      exact Toml.ordered_read hread
    · cases h
  intro l hl
  rcases List.mem_append.mp hl with hl | hl
  · rcases List.mem_append.mp hl with hl | hl
    · obtain ⟨c, -, rfl⟩ := List.mem_map.mp hl
      exact Setting.ordered_ofJson _
    · exact forall_of_mapM (mapM_eq_some_iff.mpr files) hfile l hl
  · unfold variableLayer at environment
    split at environment
    · split at environment
      · next layer hlayer =>
        obtain rfl := Except.ok.inj environment
        obtain rfl := List.mem_singleton.mp hl
        exact Setting.ordered_ofVariables hlayer
      · cases environment
    · obtain rfl := Except.ok.inj environment
      exact absurd hl List.not_mem_nil

/-! ## What is looked at -/

/-- **What is loaded hangs on nothing but what is looked at**, and the variables. -/
theorem load_congr (hdirectories : s.directories w = s.directories w')
    (henvironment : w.environment = w'.environment) (h : ∀ p, s.Looks w p → w.SameAt w' p) :
    load s w = load s w' := by
  have hpaths := Sources.paths_congr hdirectories fun p hp => (h p hp).leads
  have hvariables : variableLayer s w = variableLayer s w' := by
    unfold variableLayer
    rw [henvironment]
  rw [load_eq, load_eq, ← hpaths, ← hvariables]
  cases hps : s.paths w with
  | error e => rfl
  | ok ps =>
    have hsettings : ps.map (fileSetting? w) = ps.map (fileSetting? w') := by
      refine List.map_congr_left fun p hp => ?_
      unfold fileSetting?
      rw [(h p (Sources.looks_of_mem_paths hps hp)).content]
    have hfiles : fileSettings w ps = fileSettings w' ps := by
      have hmap : ∀ w : Surroundings,
          ps.mapM (fileSetting? w) = (ps.map (fileSetting? w)).mapM id := fun w => by
        rw [List.mapM_map]
        rfl
      rw [fileSettings, fileSettings, hmap, hmap, hsettings]
    simp only [Except.bind, hfiles]

/-! ## Where settings come from -/

/-- **A configuration is made of layers**: every field is read from what the highest
layer has that says something on the way to it, laid over what the layers below
it come to there. This matters for tables only; everything else is as this layer
has it. A field that no layer says anything about has its default. -/
structure MadeOf (ls : List Setting) (c : Config) : Prop where
  said : ∀ {β : Type} {chain : List String} {part : Setting → Setting.Read β} {get : Config → β},
    IsField chain part get → ∀ {lower : List Setting} {u v : Setting},
      Setting.Decides chain ls lower u → u.at? chain = some v →
        part (Setting.laidOver lower chain v) = .ok (get c)
  plain : ∀ {β : Type} {chain : List String} {part : Setting → Setting.Read β} {get : Config → β},
    IsField chain part get → ∀ {lower : List Setting} {u v : Setting},
      Setting.Decides chain ls lower u → u.at? chain = some v → (∀ es, v ≠ .table es) →
        part v = .ok (get c)
  unsaid : ∀ {β : Type} {chain : List String} {part : Setting → Setting.Read β} {get : Config → β},
    IsField chain part get → (∀ l ∈ ls, l.Silent chain) → get c = get default

theorem extract_ok_iff {m : Setting} {c : Config} :
    extract m = .ok c ↔ ofSetting m = .ok c ∧ c.Valid := by
  have hbind : extract m = ((ofSetting m).mapError .setting).bind fun c =>
      ((validate c).mapError .invalid).bind fun _ => .ok c := rfl
  rw [hbind, ← validate_eq_ok_iff]
  cases hread : ofSetting m with
  | error e => simp [Except.mapError, Except.bind]
  | ok c' =>
    cases hvalid : validate c' with
    | error f =>
      simp only [Except.mapError, Except.bind, hvalid, reduceCtorEq, false_iff, Except.ok.injEq]
      rintro ⟨rfl, hc⟩
      exact nomatch hvalid.symm.trans hc
    | ok u =>
      simp only [Except.mapError, Except.bind, hvalid, Except.ok.injEq]
      exact ⟨fun h => ⟨h, h ▸ hvalid⟩, fun h => h.1⟩

theorem ofSetting_of_extract {m : Setting} {c : Config} (h : extract m = .ok c) :
    ofSetting m = .ok c :=
  (extract_ok_iff.mp h).1

/-- What is read from layers laid over each other is made of them. -/
theorem Stacked.madeOf {c : Config} (h : Stacked s w paths ls)
    (hc : ofSetting (.layered ls) = .ok c) : c.MadeOf ls := by
  have hordered := Setting.ordered_layered h.ordered
  have hsaid : ∀ {β : Type} {chain : List String} {part : Setting → Setting.Read β}
      {get : Config → β}, IsField chain part get → ∀ {lower : List Setting} {u v : Setting},
        Setting.Decides chain ls lower u → u.at? chain = some v →
          part (Setting.laidOver lower chain v) = .ok (get c) := by
    intro β chain part get hfield lower u v hdecides hv
    refine hfield.readsAt.said hordered hc ?_
    rw [Setting.at?_layered h.ordered hdecides, hv, Option.map_some]
  refine ⟨hsaid, fun hfield _ _ _ hdecides hv hplain => ?_, fun hfield hsilent => ?_⟩
  · rw [← Setting.laidOver_of_plain hplain]
    exact hsaid hfield hdecides hv
  · refine hfield.readsAt.unsaid hordered hc ?_
    obtain ⟨name, rest, rfl⟩ := hfield.exists_cons
    exact Setting.silent_layered fun l hl => ⟨h.ordered l hl, hsilent l hl⟩

/-- **A configuration is loaded from its layers.** Loading comes to one thing
(`LoadsTo`). It hangs on nothing but what there is at the paths that are looked
at, which are those of the candidates up to the first one whose base is there, and the
variables. If it gives a configuration, each setting of this is that of the
highest layer that says something about it. -/
theorem load_layered (s : Sources) (w : Surroundings) :
    (∀ r, load s w = r ↔ LoadsTo s w r) ∧
      (∀ w', s.directories w = s.directories w' → w.environment = w'.environment →
        (∀ p, s.Looks w p → w.SameAt w' p) → load s w = load s w') ∧
      ∀ paths ls, s.Takes w (.ok paths) → Stacked s w paths ls →
        (∀ chain lower u, Setting.Decides chain ls lower u →
          (Setting.layered ls).at? chain = (u.at? chain).map (Setting.laidOver lower chain)) ∧
        ∀ c, load s w = .ok c → c.MadeOf ls := by
  refine ⟨fun r => loadsTo_iff.symm, fun w' => load_congr, fun paths ls takes stacked => ?_⟩
  refine ⟨fun chain lower u => Setting.at?_layered stacked.ordered, fun c hc => ?_⟩
  have hextract : extract (.layered ls) = .ok c :=
    (loadsTo_iff.mp (.extracted takes stacked)).symm.trans hc
  exact stacked.madeOf (ofSetting_of_extract hextract)

/-- Two directories are searched, and a configuration is merged. -/
def Sources.sample : Sources :=
  ⟨.production, ["/a", "/b"], none,
    [⟨{ LoggingConfig.default with level := .debug }, ⟨false⟩, .default⟩], true⟩

/-- A variant for the profile in the first directory, a base in the second one, something
in the place of a later candidate, and a variable. -/
def Surroundings.sample (later : FileNode) : Surroundings :=
  ⟨.directory [
    (.ofText "a", .directory [(.ofText "chime.production.toml",
      .file (Text.Utf8.encode "[logging]\nlevel = \"warn\""))]),
    (.ofText "b", .directory [(.ofText "chime.toml",
      .file (Text.Utf8.encode "[logging]\nformat = \"json\"")), (.ofText "config.toml", later)])],
    [], "/", [("CHIME_BOTS__AUTO_LOAD", "false")]⟩

/-- What the layers say. -/
def sampleLayers : List Setting :=
  (default :: Sources.sample.merged).map toSetting ++
    [.table [("logging", .table [("level", .text "warn")])],
      .table [("logging", .table [("format", .text "json")])]] ++
    [.table [("bots", .table [("auto_load", .bool false)])]]

/-- The configuration they are laid over each other to. -/
def sample : Config :=
  ⟨{ LoggingConfig.default with level := .warn, format := .json }, ⟨false⟩,
    { BotsConfig.default with autoLoad := false }⟩

theorem variableLayer_sample (later : FileNode) : variableLayer .sample (.sample later) =
    .ok [.table [("bots", .table [("auto_load", .bool false)])]] := by
  have hname : variableRule.settingName? "CHIME_BOTS__AUTO_LOAD" =
      some "bots.auto_load".toList := rfl
  have hsaid : Setting.ofVariable? "bots.auto_load".toList "false" =
      some (.table [("bots", .table [("auto_load", .bool false)])]) := by
    have hchain : Setting.chainOf "bots.auto_load".toList = ["bots", "auto_load"] := rfl
    have htext : Setting.ofText "false" = .bool false := by cbv
    rw [Setting.ofVariable?, hchain, htext]
    rfl
  have hvariables : Setting.ofVariables? variableRule [("CHIME_BOTS__AUTO_LOAD", "false")] =
      some (.layered [.table [("bots", .table [("auto_load", .bool false)])]]) := by
    generalize "bots.auto_load".toList = found at hname hsaid
    simp [Setting.ofVariables?, hname, hsaid]
  rw [variableLayer, Surroundings.sample, hvariables]
  cbv

theorem stacked_sample : Stacked .sample (.sample .locked)
    ["/a/chime.production.toml", "/b/chime.toml"] sampleLayers := by
  refine .intro (.cons ?_ (.cons ?_ .nil)) (variableLayer_sample _)
  · rw [fileSetting?_of_text rfl]
    cbv
  · rw [fileSetting?_of_text rfl]
    cbv

theorem sameAt_sample {p : String} (hp : Sources.Looks .sample (.sample .locked) p) :
    Surroundings.SameAt (.sample .locked) (.sample .emptyDirectory) p := by
  have hcandidates : Sources.candidates .sample (.sample .locked) =
      [⟨"/a/chime.production.toml", "/a/chime.toml"⟩,
        ⟨"/a/config.production.toml", "/a/config.toml"⟩,
        ⟨"/b/chime.production.toml", "/b/chime.toml"⟩,
        ⟨"/b/config.production.toml", "/b/config.toml"⟩] := by decide +kernel
  have hfound : (Surroundings.sample .locked).leads "/b/chime.toml" = true := by decide +kernel
  have hcomes : ∀ c,
      Sources.ComesTo (.sample .locked) (Sources.candidates .sample (.sample .locked)) c →
        Surroundings.SameAt (.sample .locked) (.sample .emptyDirectory) c.variant ∧
          Surroundings.SameAt (.sample .locked) (.sample .emptyDirectory) c.base := by
    intro c hc
    simp only [hcandidates, Sources.comesTo_cons_iff, hfound] at hc
    rcases hc with rfl | ⟨-, rfl | ⟨-, rfl | ⟨⟨⟩, -⟩⟩⟩ <;>
      exact ⟨Surroundings.sameAt_of_resolve rfl rfl, Surroundings.sameAt_of_resolve rfl rfl⟩
  cases hp with
  | named file => cases file
  | variant _ comes => exact (hcomes _ comes).1
  | base _ comes => exact (hcomes _ comes).2

theorem decides_sample : Setting.Decides ["logging", "level"] sampleLayers
    ((default :: Sources.sample.merged).map toSetting)
    (.table [("logging", .table [("level", .text "warn")])]) := by
  have hspeaks : ¬Setting.Silent ["logging", "level"]
      (.table [("logging", .table [("level", .text "warn")])]) := by
    simp [Setting.Silent, Json.member?]
  have habove : ∀ t ∈ [Setting.table [("logging", .table [("format", .text "json")])],
      .table [("bots", .table [("auto_load", .bool false)])]], t.Silent ["logging", "level"] := by
    simp [Setting.Silent, Json.member?]
  rw [sampleLayers, List.append_assoc]
  exact .intro hspeaks habove

/-- The level comes from the variant in the first directory, which is laid over the
configuration that is merged. The base in the second directory says the format, and
ends the search: it is not seen whether there is a locked file or a directory in the
place of the next candidate. -/
theorem load_layered_twoDirectories :
    load .sample (.sample .locked) = .ok sample ∧
      load .sample (.sample .emptyDirectory) = .ok sample ∧
      (Setting.layered sampleLayers).at? ["logging", "level"] = some (.text "warn") ∧
      sample.MadeOf sampleLayers := by
  have takes : Sources.Takes .sample (.sample .locked)
      (.ok ["/a/chime.production.toml", "/b/chime.toml"]) :=
    Sources.takes_iff.mpr (by decide +kernel)
  obtain ⟨hload, hsame, hlayers⟩ := load_layered .sample (.sample .locked)
  obtain ⟨hat, hmade⟩ := hlayers _ _ takes stacked_sample
  have hextract : extract (.layered sampleLayers) = .ok sample := by cbv
  have hsample : load .sample (.sample .locked) = .ok sample :=
    (hload _).mpr (hextract ▸ .extracted takes stacked_sample)
  refine ⟨hsample, ?_, (hat _ _ _ decides_sample).trans (by cbv), hmade _ hsample⟩
  exact (hsame (.sample .emptyDirectory) rfl rfl fun p => sameAt_sample).symm.trans hsample

end Switchboard.Config
