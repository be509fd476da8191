import Mathlib
import Switchboard.Record.Loader

/-!
# Records whatever the listing

A directory lists its entries in an order that means nothing. What is made of
them does not depend on it: the files whose names are texts that some decoder
accepts are taken in the order of the bytes of their names, and each of them
comes to a record or to an error (`RecordLoader.Gives`), by the first decoder
that accepts it (`RecordLoader.IsFor`). The records are those of all these
files; or the first error among them is the result, and there are no records
(`RecordLoader.decodeFiles_eq_ok_iff`, `RecordLoader.decodeFiles_eq_error_iff`).

So two listings with the same files that matter give the same, whatever else
they list (`RecordLoader.loadDirectory_canonical`).
-/

namespace Switchboard

namespace ListedFile

/-! ## The order of names -/

theorem inOrder_perm (files : List ListedFile) : (inOrder files).Perm files :=
  List.mergeSort_perm files _

theorem pairwise_inOrder (files : List ListedFile) :
    (inOrder files).Pairwise fun f g => f.name.bytes ≤ g.name.bytes := by
  have htrans : ∀ f g h : ListedFile, decide (f.name.bytes ≤ g.name.bytes) = true →
      decide (g.name.bytes ≤ h.name.bytes) = true → decide (f.name.bytes ≤ h.name.bytes) = true := by
    intro f g h hfg hgh
    rw [decide_eq_true_eq] at *
    exact List.le_trans hfg hgh
  have htotal : ∀ f g : ListedFile,
      (decide (f.name.bytes ≤ g.name.bytes) || decide (g.name.bytes ≤ f.name.bytes)) = true := by
    intro f g
    rw [Bool.or_eq_true, decide_eq_true_eq, decide_eq_true_eq]
    exact List.le_total _ _
  exact (List.pairwise_mergeSort htrans htotal files).imp fun h => of_decide_eq_true h

/-- The names of files are those of entries. -/
theorem nodup_among {entries : List (FileName × FileNode)} (h : (entries.map (·.1)).Nodup) :
    ((among entries).map (·.name)).Nodup := by
  have hsub : ((among entries).map (·.name)).Sublist (entries.map (·.1)) := by
    induction entries with
    | nil => exact .slnil
    | cons entry entries ih =>
      have ih := ih (List.nodup_cons.mp h).2
      cases hc : entry.2.content? with
      | none => simpa [among, ofEntry?, hc] using ih.cons _
      | some content => simpa [among, ofEntry?, hc] using ih.cons_cons entry.1
  exact h.sublist hsub

/-- Files of which no two have one name are sorted in one way. -/
theorem eq_of_sorted {files files' : List ListedFile} (hn : (files.map (·.name)).Nodup)
    (hp : files.Perm files') (h : files.Pairwise fun f g => f.name.bytes ≤ g.name.bytes)
    (h' : files'.Pairwise fun f g => f.name.bytes ≤ g.name.bytes) : files = files' := by
  refine List.Perm.eq_of_pairwise (fun f g hf hg hfg hgf => ?_) h h' hp
  have hname : f.name = g.name := congrArg FileName.mk (List.le_antisymm hfg hgf)
  exact List.inj_on_of_nodup_map hn hf (hp.mem_iff.mpr hg) hname

end ListedFile

namespace RecordLoader

variable {l : RecordLoader} {directory name : String} {f : ListedFile} {d : RecordDecoder}

/-! ## What becomes of a file -/

/-- **A file is for a decoder**: its name is a text, and of the decoders that
accept it this one is asked first. -/
structure IsFor (l : RecordLoader) (f : ListedFile) (name : String) (d : RecordDecoder) : Prop where
  text : f.name.text? = some name
  first : ∃ before after, l.decoders = before ++ d :: after ∧ d.accepts name = true ∧
    ∀ e ∈ before, e.accepts name = false

/-- Some decoder accepts the file. -/
def Accepts (l : RecordLoader) (f : ListedFile) : Prop := ∃ name d, l.IsFor f name d

/-- **What a file of a directory comes to** that some decoder accepts. -/
inductive Gives (l : RecordLoader) (directory : String) (f : ListedFile) :
    Except RecordError BotRecord → Prop
  | decoded {name : String} {d : RecordDecoder} {bytes : List UInt8}
      (isFor : l.IsFor f name d) (content : f.content = .ok bytes) :
      Gives l directory f (d.decode name bytes)
  | unreadable {name : String} {d : RecordDecoder} {fault : FileFault}
      (isFor : l.IsFor f name d) (content : f.content = .error fault) :
      Gives l directory f (.error (.unreadable (Path.join directory name)))

theorem decoderFor?_eq_some_iff :
    l.decoderFor? name = some d ↔ ∃ before after, l.decoders = before ++ d :: after ∧
      d.accepts name = true ∧ ∀ e ∈ before, e.accepts name = false := by
  rw [decoderFor?, List.find?_eq_some_iff_append]
  constructor
  · rintro ⟨hd, before, after, hl, hbefore⟩
    exact ⟨before, after, hl, hd, fun e he => by simpa using hbefore e he⟩
  · rintro ⟨before, after, hl, hd, hbefore⟩
    exact ⟨hd, before, after, hl, fun e he => by simpa using hbefore e he⟩

theorem isFor_iff : l.IsFor f name d ↔ f.name.text? = some name ∧ l.decoderFor? name = some d := by
  rw [decoderFor?_eq_some_iff]
  exact ⟨fun h => ⟨h.text, h.first⟩, fun h => ⟨h.1, h.2⟩⟩

theorem accepts_iff : l.Accepts f ↔ (f.name.text?.bind l.decoderFor?).isSome = true := by
  simp only [Accepts, isFor_iff, Option.isSome_iff_exists, Option.bind_eq_some_iff]
  exact ⟨fun ⟨name, d, h⟩ => ⟨d, name, h⟩, fun ⟨d, name, h⟩ => ⟨name, d, h⟩⟩

instance : DecidablePred l.Accepts := fun _ => decidable_of_iff _ accepts_iff.symm

/-- A file that no decoder accepts is passed over. -/
theorem decodeListed_of_not_accepts (h : ¬l.Accepts f) : l.decodeListed directory f = .ok none := by
  unfold decodeListed
  cases hname : f.name.text? with
  | none => rfl
  | some name =>
    cases hd : l.decoderFor? name with
    | none => simp only [decodeFile, hd]
    | some d => exact absurd ⟨name, d, isFor_iff.mpr ⟨hname, hd⟩⟩ h

/-- A file comes to what is made of it. -/
theorem decodeListed_of_gives {r : Except RecordError BotRecord} (h : l.Gives directory f r) :
    l.decodeListed directory f = r.map some := by
  cases h with
  | decoded isFor content =>
    obtain ⟨hname, hd⟩ := isFor_iff.mp isFor
    simp only [decodeListed, hname, decodeFile, hd, content]
  | unreadable isFor content =>
    obtain ⟨hname, hd⟩ := isFor_iff.mp isFor
    simp only [decodeListed, hname, decodeFile, hd, content]
    rfl

/-- A file that some decoder accepts comes to something. -/
theorem Accepts.exists_gives (h : l.Accepts f) (directory : String) :
    ∃ r, l.Gives directory f r := by
  obtain ⟨name, d, hfor⟩ := h
  cases hcontent : f.content with
  | ok bytes => exact ⟨_, .decoded hfor hcontent⟩
  | error fault => exact ⟨_, .unreadable hfor hcontent⟩

theorem Gives.accepts {r : Except RecordError BotRecord} (h : l.Gives directory f r) :
    l.Accepts f := by
  cases h with
  | decoded isFor _ => exact ⟨_, _, isFor⟩
  | unreadable isFor _ => exact ⟨_, _, isFor⟩

/-- A file comes to one thing only. -/
theorem Gives.unique {r r' : Except RecordError BotRecord} (h : l.Gives directory f r)
    (h' : l.Gives directory f r') : r = r' := by
  have hsome := (decodeListed_of_gives h).symm.trans (decodeListed_of_gives h')
  cases r <;> cases r' <;> grind [Except.map]

/-! ## What becomes of files -/

theorem decodeFiles_nil : l.decodeFiles directory [] = .ok [] := rfl

theorem decodeFiles_cons_of_not_accepts (files : List ListedFile) (h : ¬l.Accepts f) :
    l.decodeFiles directory (f :: files) = l.decodeFiles directory files := by
  simp only [decodeFiles, List.mapM_cons, decodeListed_of_not_accepts h]
  cases files.mapM (l.decodeListed directory) <;> rfl

theorem decodeFiles_cons_of_record (files : List ListedFile) {r : BotRecord}
    (h : l.Gives directory f (.ok r)) :
    l.decodeFiles directory (f :: files) = (l.decodeFiles directory files).map (r :: ·) := by
  simp only [decodeFiles, List.mapM_cons, decodeListed_of_gives h]
  cases files.mapM (l.decodeListed directory) <;> rfl

theorem decodeFiles_cons_of_error (files : List ListedFile) {e : RecordError}
    (h : l.Gives directory f (.error e)) :
    l.decodeFiles directory (f :: files) = .error e := by
  simp only [decodeFiles, List.mapM_cons, decodeListed_of_gives h]
  rfl

/-- Files that no decoder accepts change nothing. -/
theorem decodeFiles_filter (files : List ListedFile) :
    l.decodeFiles directory (files.filter fun f => l.Accepts f) = l.decodeFiles directory files := by
  induction files with
  | nil => rfl
  | cons f files ih =>
    rw [List.filter_cons]
    split
    · next hf =>
      obtain ⟨e | r, hr⟩ := (of_decide_eq_true hf).exists_gives directory
      · rw [decodeFiles_cons_of_error _ hr, decodeFiles_cons_of_error _ hr]
      · rw [decodeFiles_cons_of_record _ hr, decodeFiles_cons_of_record _ hr, ih]
    · next hf => rw [ih, decodeFiles_cons_of_not_accepts _ fun h => hf (decide_eq_true h)]

/-- **The records of files that decoders accept** are those of all of
them. -/
theorem decodeFiles_eq_ok_iff {files : List ListedFile} (h : ∀ f ∈ files, l.Accepts f)
    {records : List BotRecord} :
    l.decodeFiles directory files = .ok records ↔
      List.Forall₂ (fun f r => l.Gives directory f (.ok r)) files records := by
  induction files generalizing records with
  | nil => rw [decodeFiles_nil, List.forall₂_nil_left_iff, Except.ok.injEq, eq_comm]
  | cons f files ih =>
    obtain ⟨hf, hfiles⟩ := List.forall_mem_cons.mp h
    rw [List.forall₂_cons_left_iff]
    simp only [← ih hfiles]
    obtain ⟨e | r, hr⟩ := hf.exists_gives directory
    · rw [decodeFiles_cons_of_error _ hr]
      refine iff_of_false (by simp) ?_
      rintro ⟨r, -, hrecord, -⟩
      exact absurd (hr.unique hrecord) (by simp)
    · rw [decodeFiles_cons_of_record _ hr]
      constructor
      · intro hmap
        cases hrest : l.decodeFiles directory files with
        | error e => rw [hrest] at hmap; cases hmap
        | ok rest => rw [hrest] at hmap; cases hmap; exact ⟨r, rest, hr, rfl, rfl⟩
      · rintro ⟨r', rest, hr', hrest, rfl⟩
        rw [hrest, Except.ok.inj (hr.unique hr')]
        rfl

/-- **The error of files that decoders accept** is that of the first one of
them that is not decoded. -/
theorem decodeFiles_eq_error_iff {files : List ListedFile} (h : ∀ f ∈ files, l.Accepts f)
    {e : RecordError} :
    l.decodeFiles directory files = .error e ↔ ∃ before f after, files = before ++ f :: after ∧
      (∀ g ∈ before, ∃ r, l.Gives directory g (.ok r)) ∧ l.Gives directory f (.error e) := by
  induction files with
  | nil => simp [decodeFiles_nil]
  | cons f files ih =>
    obtain ⟨hf, hfiles⟩ := List.forall_mem_cons.mp h
    obtain ⟨e' | r, hr⟩ := hf.exists_gives directory
    · rw [decodeFiles_cons_of_error _ hr]
      constructor
      · intro he
        exact ⟨[], f, files, rfl, by simp, Except.error.inj he ▸ hr⟩
      · rintro ⟨before, g, after, hsplit, hbefore, hg⟩
        cases before with
        | nil =>
          obtain ⟨rfl, -⟩ := List.cons.inj hsplit
          rw [Except.error.inj (hr.unique hg)]
        | cons b before =>
          -- no file is before the one that comes to the error
          obtain ⟨rfl, -⟩ := List.cons.inj hsplit
          obtain ⟨r, hb⟩ := hbefore f List.mem_cons_self
          exact absurd (hr.unique hb) (by simp)
    · rw [decodeFiles_cons_of_record _ hr]
      have hmap : (l.decodeFiles directory files).map (r :: ·) = .error e ↔
          l.decodeFiles directory files = .error e := by
        cases l.decodeFiles directory files <;> simp [Except.map]
      rw [hmap, ih hfiles]
      constructor
      · rintro ⟨before, g, after, rfl, hbefore, hg⟩
        exact ⟨f :: before, g, after, rfl, List.forall_mem_cons.mpr ⟨⟨r, hr⟩, hbefore⟩, hg⟩
      · rintro ⟨before, g, after, hsplit, hbefore, hg⟩
        cases before with
        | nil =>
          obtain ⟨rfl, -⟩ := List.cons.inj hsplit
          exact absurd (hr.unique hg) (by simp)
        | cons b before =>
          obtain ⟨rfl, rfl⟩ := List.cons.inj hsplit
          exact ⟨before, g, after, rfl, (List.forall_mem_cons.mp hbefore).2, hg⟩

/-- **What files come to** that decoders accept: the records of all of them,
or the error of the first one that comes to one. -/
inductive Comes (l : RecordLoader) (directory : String) :
    List ListedFile → Except RecordError (List BotRecord) → Prop
  | records {files : List ListedFile} {records : List BotRecord}
      (each : List.Forall₂ (fun f r => l.Gives directory f (.ok r)) files records) :
      Comes l directory files (.ok records)
  | error {before : List ListedFile} {f : ListedFile} {e : RecordError}
      (earlier : ∀ g ∈ before, ∃ r, l.Gives directory g (.ok r))
      (first : l.Gives directory f (.error e)) (after : List ListedFile) :
      Comes l directory (before ++ f :: after) (.error e)

theorem comes_iff {files : List ListedFile} (h : ∀ f ∈ files, l.Accepts f)
    {r : Except RecordError (List BotRecord)} :
    l.Comes directory files r ↔ l.decodeFiles directory files = r := by
  cases r with
  | ok records =>
    rw [decodeFiles_eq_ok_iff h]
    refine ⟨fun hc => ?_, .records⟩
    cases hc with
    | records each => exact each
  | error e =>
    rw [decodeFiles_eq_error_iff h]
    constructor
    · intro hc
      cases hc with
      | error earlier first after => exact ⟨_, _, after, rfl, earlier, first⟩
    · rintro ⟨before, f, after, rfl, earlier, first⟩
      exact .error earlier first after

/-! ## What becomes of a directory -/

/-- **The files of a directory that are read**: those that some decoder
accepts, in the order of the bytes of their names. -/
structure Reads (l : RecordLoader) (entries : List (FileName × FileNode))
    (files : List ListedFile) : Prop where
  perm : files.Perm ((ListedFile.among entries).filter fun f => l.Accepts f)
  sorted : files.Pairwise fun f g => f.name.bytes ≤ g.name.bytes

section Entries

variable {entries entries' : List (FileName × FileNode)} {files : List ListedFile}

theorem reads_inOrder (l : RecordLoader) (entries : List (FileName × FileNode)) :
    l.Reads entries ((ListedFile.inOrder (ListedFile.among entries)).filter fun f => l.Accepts f) :=
  ⟨(ListedFile.inOrder_perm _).filter _, (ListedFile.pairwise_inOrder _).filter _⟩

theorem Reads.mem_iff (h : l.Reads entries files) (f : ListedFile) :
    f ∈ files ↔ f ∈ ListedFile.among entries ∧ l.Accepts f := by
  rw [h.perm.mem_iff, List.mem_filter, decide_eq_true_iff]

/-- The names of the files that are read are names of entries. -/
theorem Reads.nodup (h : l.Reads entries files) (hn : (entries.map (·.1)).Nodup) :
    (files.map (·.name)).Nodup :=
  (h.perm.map _).nodup_iff.mpr <|
    (ListedFile.nodup_among hn).sublist (List.filter_sublist.map _)

/-- Two directories with the same files that decoders accept are read
alike. -/
theorem Reads.unique {files' : List ListedFile} (h : l.Reads entries files)
    (h' : l.Reads entries' files') (hn : (entries.map (·.1)).Nodup)
    (hn' : (entries'.map (·.1)).Nodup)
    (hsame : ∀ f, l.Accepts f → (f ∈ ListedFile.among entries ↔ f ∈ ListedFile.among entries')) :
    files = files' := by
  have hnodup := h.nodup hn
  refine ListedFile.eq_of_sorted hnodup ?_ h.sorted h'.sorted
  rw [List.perm_ext_iff_of_nodup hnodup.of_map (h'.nodup hn').of_map]
  intro f
  rw [h.mem_iff, h'.mem_iff]
  exact ⟨fun ⟨hf, ha⟩ => ⟨(hsame f ha).mp hf, ha⟩, fun ⟨hf, ha⟩ => ⟨(hsame f ha).mpr hf, ha⟩⟩

/-- **What a directory comes to** is what the files come to that are read. -/
theorem comes_decodeEntries (l : RecordLoader) (directory : String)
    (entries : List (FileName × FileNode)) :
    ∃ files, l.Reads entries files ∧
      l.Comes directory files (l.decodeEntries directory entries) := by
  have hreads := reads_inOrder l entries
  exact ⟨_, hreads, (comes_iff fun f hf => ((hreads.mem_iff f).mp hf).2).mpr (decodeFiles_filter _)⟩

end Entries

/-- **What is found in the directory a path leads to**: what the files come to
that are read; a directory that is not there is empty, and one that cannot be
listed is an error. -/
inductive Finds (l : RecordLoader) (t : FileNode) (current : List String) (path : String) :
    Except RecordError (List BotRecord) → Prop
  | missing (list : t.list current path = .error .notFound) : Finds l t current path (.ok [])
  | unreadable {fault : FileFault} (list : t.list current path = .error fault)
      (present : fault ≠ .notFound) : Finds l t current path (.error (.unreadable path))
  | listed {entries : List (FileName × FileNode)} {files : List ListedFile}
      {r : Except RecordError (List BotRecord)} (list : t.list current path = .ok entries)
      (reads : l.Reads entries files) (comes : l.Comes path files r) : Finds l t current path r

/-- **Loading gives what is found.** -/
theorem finds_loadDirectory (l : RecordLoader) (t : FileNode) (current : List String)
    (path : String) : l.Finds t current path (l.loadDirectory t current path) := by
  unfold loadDirectory
  split
  · next entries hlist =>
    obtain ⟨files, hreads, hcomes⟩ := l.comes_decodeEntries path entries
    exact .listed hlist hreads hcomes
  · next hlist => exact .missing hlist
  · next fault hfault hlist => exact .unreadable hlist hfault

/-- A decoder that is added later is asked earlier. -/
theorem decoderFor?_foldl (added : List RecordDecoder) (l : RecordLoader) (name : String) :
    (added.foldl withDecoder l).decoderFor? name
      = (added.reverse.find? (·.accepts name)).or (l.decoderFor? name) := by
  have hdecoders : (added.foldl withDecoder l).decoders = added.reverse ++ l.decoders := by
    induction added generalizing l with
    | nil => rfl
    | cons d added ih =>
      rw [List.foldl_cons, ih, withDecoder, List.reverse_cons, List.append_assoc]
      rfl
  rw [decoderFor?, hdecoders, List.find?_append]
  rfl

/-- A record of a standard decoder names the component that its data has. -/
theorem component_of_standard (hd : d ∈ standard.decoders) {bytes : List UInt8} {r : BotRecord}
    (h : d.decode name bytes = .ok r) :
    Json.member? "component" r.data = some (.str r.component) ∧
      Text.isBlank r.component = false := by
  have key : ∀ {data}, BotRecord.ofData name data = .ok r →
      Json.member? "component" r.data = some (.str r.component) ∧
        Text.isBlank r.component = false := by
    intro data hr
    obtain ⟨c, hc, hblank, rfl⟩ := BotRecord.ofData_eq_ok_iff.mp hr
    exact ⟨hc, hblank⟩
  rcases List.mem_pair.mp hd with rfl | rfl
  · simp only [RecordDecoder.json] at h
    split at h
    · exact key h
    · cases h
  · simp only [RecordDecoder.toml] at h
    split at h
    · exact key h
    · cases h

/-- **The records of a directory do not hang on how it is listed.** Take two
places where a path leads to a directory, no name coming twice in either, and
let the two list the same files that some decoder accepts, in whatever order
and whatever else they list: subdirectories, files that no decoder accepts,
names that are no texts. Then loading gives the same from both.

It is what the files come to that some decoder accepts, taken by the bytes of
their names: the records of all of them, each by the first decoder that accepts
it, or the error of the first one that cannot be read or decoded, and then
nothing else. A decoder that is added later is asked before those that were
there. What a standard decoder makes has for its component the one that its
data names, which is not blank. -/
theorem loadDirectory_canonical {t t' : FileNode} {current current' : List String} {path : String}
    {entries entries' : List (FileName × FileNode)}
    (ht : t.list current path = .ok entries) (ht' : t'.list current' path = .ok entries')
    (hn : (entries.map (·.1)).Nodup) (hn' : (entries'.map (·.1)).Nodup)
    (hsame : ∀ f, l.Accepts f → (f ∈ ListedFile.among entries ↔ f ∈ ListedFile.among entries')) :
    l.loadDirectory t current path = l.loadDirectory t' current' path ∧
      (∃ files : List ListedFile, files.Pairwise (fun f g => f.name.bytes < g.name.bytes) ∧
        (∀ f, f ∈ files ↔ f ∈ ListedFile.among entries ∧ l.Accepts f) ∧
        l.Comes path files (l.loadDirectory t current path)) ∧
      (∀ (added : List RecordDecoder) (name : String),
        (added.foldl withDecoder standard).decoderFor? name
          = (added.reverse.find? (·.accepts name)).or (standard.decoderFor? name)) ∧
      ∀ d ∈ standard.decoders, ∀ name bytes r, d.decode name bytes = .ok r →
        Json.member? "component" r.data = some (.str r.component) ∧
          Text.isBlank r.component = false := by
  have hload : l.loadDirectory t current path = l.decodeEntries path entries := by
    rw [loadDirectory, ht]
  have hload' : l.loadDirectory t' current' path = l.decodeEntries path entries' := by
    rw [loadDirectory, ht']
  obtain ⟨files, hreads, hcomes⟩ := l.comes_decodeEntries path entries
  obtain ⟨files', hreads', hcomes'⟩ := l.comes_decodeEntries path entries'
  have haccepts : ∀ f ∈ files, l.Accepts f := fun f hf => ((hreads.mem_iff f).mp hf).2
  obtain rfl := hreads.unique hreads' hn hn' hsame
  rw [hload, hload']
  refine ⟨?_, ⟨files, ?_, hreads.mem_iff, hcomes⟩, fun added name => decoderFor?_foldl added _ name,
    fun d hd name bytes r => component_of_standard hd⟩
  · exact ((comes_iff haccepts).mp hcomes).symm.trans ((comes_iff haccepts).mp hcomes')
  · have hdistinct : files.Pairwise fun f g => f.name ≠ g.name :=
      List.pairwise_map.mp (hreads.nodup hn)
    exact hreads.sorted.imp₂ (fun f g hle hne => Std.lt_of_le_of_ne hle fun h =>
      hne (congrArg FileName.mk h)) hdistinct

/-- Records read with a decoder of lines before the standard ones. A
directory lists two records, a locked file that no decoder accepts, a
subdirectory named as a record is, and a locked file whose name is no text.
What is listed the other way round, with less of what does not matter, gives
the same two records. -/
theorem loadDirectory_canonical_relisted :
    let l := standard.withDecoder (.lines "ini" ".bot.ini")
    let alpha := (FileName.ofText "a.bot.ini", FileNode.file (Text.Utf8.encode "component=alpha"))
    let beta := (FileName.ofText "b.bot.json",
      FileNode.file (Text.Utf8.encode "\x7b\"component\": \"beta\"\x7d"))
    let notes := (FileName.ofText "notes.txt", FileNode.locked)
    let inner := (FileName.ofText "c.bot.json", FileNode.emptyDirectory)
    let stray := (FileName.mk [0xff], FileNode.locked)
    let bots (entries : List (FileName × FileNode)) : FileNode :=
      .directory [(.ofText "bots", .directory entries)]
    l.loadDirectory (bots [notes, beta, inner, alpha, stray]) [] "/bots"
        = l.loadDirectory (bots [alpha, inner, beta]) [] "/bots" ∧
      l.loadDirectory (bots [alpha, inner, beta]) [] "/bots"
        = .ok [⟨"a.bot.ini", "alpha", [("component", .str "alpha")]⟩,
          ⟨"b.bot.json", "beta", [("component", .str "beta")]⟩] := by
  intro l alpha beta notes inner stray bots
  have ht : (bots [notes, beta, inner, alpha, stray]).list [] "/bots"
      = .ok [notes, beta, inner, alpha, stray] := rfl
  have ht' : (bots [alpha, inner, beta]).list [] "/bots" = .ok [alpha, inner, beta] := rfl
  refine ⟨(loadDirectory_canonical ht ht' (by decide) (by decide) ?_).1, by cbv⟩
  intro f hf
  let a : ListedFile := ⟨alpha.1, .ok (Text.Utf8.encode "component=alpha")⟩
  let b : ListedFile := ⟨beta.1, .ok (Text.Utf8.encode "\x7b\"component\": \"beta\"\x7d")⟩
  let n : ListedFile := ⟨notes.1, .error .denied⟩
  let s : ListedFile := ⟨stray.1, .error .denied⟩
  have hn : f ≠ n := by
    rintro rfl
    have hnobody : (n.name.text?.bind l.decoderFor?).isSome = false := by cbv
    exact absurd (accepts_iff.mp hf) (Bool.eq_false_iff.mp hnobody)
  have hs : f ≠ s := by
    rintro rfl
    have hnobody : (s.name.text?.bind l.decoderFor?).isSome = false := by cbv
    exact absurd (accepts_iff.mp hf) (Bool.eq_false_iff.mp hnobody)
  show f ∈ [n, b, a, s] ↔ f ∈ [a, b]
  simp only [List.mem_cons, hn, hs, List.not_mem_nil, false_or, or_false]
  exact or_comm

end RecordLoader

end Switchboard
