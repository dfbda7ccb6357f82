import SandboxProfile.Proofs.Command.Loading
import SandboxProfile.Proofs.Command.Writing
import SandboxProfile.Proofs.Profile.Reading
import SandboxProfile.Proofs.Terminal.Sequence

/-!
# The modes of the command that formats

The command that formats prints the indented profiles, checks them or writes them. All three
modes load and read the same things and indent them in the same way. So what is printed should
be what is written, what is checked should be what writing changes, and after writing there
should be nothing left to do. Printing alone leaves something out, the control sequences; the
modes agree exactly if there are none.

## Main definitions

* `runMode` is a run in one of the modes.
* `Formattable` says that the profiles of a run can be read and written, and that none of them
  is one of the files that decide how to format.
* `ModesAgree` says that the three modes fit together.

## Main results

* `modesAgree_iff` — when the modes agree.
-/

namespace SandboxProfile

/-! ### Statement -/

/-- A run of the command that formats, in one of its modes. -/
def runMode (s : Surroundings) (o : FormatOptions) (check write : Bool) : Outcome :=
  (Command.format { o with check := check, write := write }).run s

/-- The paths of the profiles that a run formats. -/
def inputPaths (s : Surroundings) (config : Config) (o : FormatOptions) : List Text :=
  discover config s.tree (if o.paths = [] then [standardInput] else o.paths)

/-- The path that a note names as one that would be reformatted. -/
def Note.wouldReformat? : Note → Option Text
  | .wouldReformat path => some path
  | _ => none

/-- The paths that a run names as those that would be reformatted. -/
def Outcome.named (o : Outcome) : List Text :=
  o.notes.filterMap Note.wouldReformat?

/-- The configuration and the catalog can be loaded, and all profiles are texts in files that can
be read. -/
structure Readable (s : Surroundings) (o : FormatOptions) (loaded : Loaded) : Prop where
  /-- The configuration and the catalog are loaded. -/
  load : load s o.common = .ok loaded
  /-- The standard input is not read. -/
  not_input : ∀ path ∈ inputPaths s loaded.config o, path ≠ standardInput
  /-- The profiles can be read. -/
  readable : ∀ path ∈ inputPaths s loaded.config o,
    ∃ text, readProfile s.tree path = .ok ⟨path, text⟩

/-- The profiles can also be written, and none of them is one of the files that were loaded. -/
structure Formattable (s : Surroundings) (o : FormatOptions) (loaded : Loaded) : Prop
    extends Readable s o loaded where
  /-- The files of the profiles can be written. -/
  writable : ∀ path ∈ inputPaths s loaded.config o,
    ∃ l f, s.tree.find path = .ok (l, .file f) ∧ f.access = .full
  /-- None of them is the configuration file. -/
  not_config : ∀ path ∈ inputPaths s loaded.config o, ∀ f,
    ConfigFile.find s.tree s.root o.common.config = .ok (some f) →
      s.tree.locate path ≠ s.tree.locate f.path
  /-- None of them is a keyword file. -/
  not_keywords : ∀ path ∈ inputPaths s loaded.config o, ∀ d name,
    s.tree.directory? (Path.normal KeywordFile.directoryName) = some d →
      s.tree.locate path ≠ .ok (d ++ [name])

/-- What a run that prints, one that checks and one that writes have to do with each other. -/
structure ModesAgree (s : Surroundings) (o : FormatOptions) (paths : List Text) : Prop where
  /-- Writing succeeds. -/
  written : (runMode s o false true).ending = .exit 0
  /-- What is printed are the texts that writing leaves in the files. -/
  printed : ∃ texts,
    List.Forall₂ (fun path text =>
      readProfile (runMode s o false true).tree path = .ok ⟨path, text⟩) paths texts ∧
    (runMode s o false false).output = texts.flatten
  /-- Checking names the paths whose bytes writing changes. -/
  named : ∀ path, path ∈ (runMode s o true false).named ↔
    path ∈ paths ∧ (runMode s o false true).tree.read path ≠ s.tree.read path
  /-- Checking finds nothing if writing changes nothing. -/
  unchanged : (∀ path ∈ paths, (runMode s o false true).tree.read path = s.tree.read path) →
    (runMode s o true false).ending = .exit 0
  /-- Checking finds something if writing changes something. -/
  changed : (∃ path ∈ paths, (runMode s o false true).tree.read path ≠ s.tree.read path) →
    (runMode s o true false).ending = .exit 1
  /-- After writing, checking finds nothing. -/
  clean : (runMode { s with tree := (runMode s o false true).tree } o true false).ending = .exit 0
  /-- After writing, writing changes nothing. -/
  stable : (runMode { s with tree := (runMode s o false true).tree } o false true).tree =
    (runMode s o false true).tree

/-! ### Reading and indenting -/

/-- The text of the profile at a path, none if it cannot be read. -/
def textAt (t : FileTree) (path : Text) : Text :=
  match readProfile t path with
  | .ok p => p.text
  | .error _ => []

/-- The indented form of a text, the text itself if it cannot be indented. -/
def indentedText (style : IndentStyle) (s : Text) : Text :=
  match formatText style s with
  | .ok t => t
  | .error _ => s

/-- The profiles at paths with their indented texts. -/
def formattedAt (style : IndentStyle) (t : FileTree) (paths : List Text) :
    List (Profile × Text) :=
  paths.map fun path => (⟨path, textAt t path⟩, indentedText style (textAt t path))

variable {s : Surroundings} {o : FormatOptions} {loaded : Loaded} {t : FileTree}
  {style : IndentStyle}

theorem readProfile_textAt {path : Text} (h : ∃ text, readProfile t path = .ok ⟨path, text⟩) :
    readProfile t path = .ok ⟨path, textAt t path⟩ := by
  obtain ⟨text, htext⟩ := h
  rw [textAt, htext]

/-- Profiles that can be read are read in order. -/
theorem readPaths_of_readable {input : List UInt8} {paths : List Text}
    (hinput : ∀ path ∈ paths, path ≠ standardInput)
    (h : ∀ path ∈ paths, ∃ text, readProfile t path = .ok ⟨path, text⟩) :
    readPaths t input paths = .ok (paths.map fun path => ⟨path, textAt t path⟩) := by
  induction paths with
  | nil => rfl
  | cons path rest ih =>
      rw [readPaths, if_neg (hinput path List.mem_cons_self),
        readProfile_textAt (h path List.mem_cons_self),
        ih (fun q hq => hinput q (List.mem_cons_of_mem _ hq))
          fun q hq => h q (List.mem_cons_of_mem _ hq)]
      rfl

/-- A text that can be indented is indented. -/
theorem formatText_indentedText {text : Text} (h : ∃ out, formatText style text = .ok out) :
    formatText style text = .ok (indentedText style text) := by
  obtain ⟨out, hout⟩ := h
  rw [indentedText, hout]

theorem formatAll_of_ok (notes : List Note) {ps : List Profile}
    (h : ∀ p ∈ ps, ∃ text, formatText style p.text = .ok text) :
    formatAll style notes ps = .ok (ps.map fun p => (p, indentedText style p.text)) := by
  induction ps with
  | nil => rfl
  | cons p rest ih =>
      rw [formatAll, formatText_indentedText (h p List.mem_cons_self),
        ih fun q hq => h q (List.mem_cons_of_mem _ hq)]
      rfl

/-- One profile that cannot be indented stops them all. -/
theorem formatAll_of_error (notes : List Note) {ps : List Profile}
    (h : ¬∀ p ∈ ps, ∃ text, formatText style p.text = .ok text) :
    ∃ f, formatAll style notes ps = .error ⟨.fault f, notes⟩ := by
  induction ps with
  | nil => exact absurd (List.forall_mem_nil _) h
  | cons p rest ih =>
      rw [formatAll]
      cases hp : formatText style p.text with
      | error e => exact ⟨e.fault, rfl⟩
      | ok text =>
          obtain ⟨f, hf⟩ := ih fun hrest => h (List.forall_mem_cons.mpr ⟨⟨text, hp⟩, hrest⟩)
          rw [hf]
          exact ⟨f, rfl⟩

/-! ### One run -/

/-- Loading writes no notes about reformatting. -/
theorem named_of_load {o : CommonOptions} (h : load s o = .ok loaded) :
    loaded.notes.filterMap Note.wouldReformat? = [] := by
  obtain ⟨config, -, h⟩ := bind_eq_ok.mp h
  obtain ⟨catalog, -, h⟩ := bind_eq_ok.mp h
  obtain rfl := pure_eq_ok.mp h
  dsimp only
  split <;> rfl

/-- All profiles of a run can be indented. -/
def AllFormat (s : Surroundings) (o : FormatOptions) (loaded : Loaded) : Prop :=
  ∀ path ∈ inputPaths s loaded.config o,
    ∃ text, formatText (indentStyle loaded.config o) (textAt s.tree path) = .ok text

/-- The profiles of a run with their indented texts. -/
def formatted (s : Surroundings) (o : FormatOptions) (loaded : Loaded) : List (Profile × Text) :=
  formattedAt (indentStyle loaded.config o) s.tree (inputPaths s loaded.config o)

/-- Reading writes no notes about reformatting. -/
theorem readAllProfiles_of_ok {config : Config} (o : CommonOptions) {paths : List Text}
    {ps : List Profile}
    (hread : readProfiles config s.tree s.input
      (if paths = [] then [standardInput] else paths) = .ok ps) (notes : List Note) :
    ∃ notes', notes'.filterMap Note.wouldReformat? = notes.filterMap Note.wouldReformat? ∧
      readAllProfiles s config o paths notes = .ok (ps, notes') := by
  refine ⟨_, ?_, by rw [readAllProfiles, hread]; rfl⟩
  split
  · rw [List.filterMap_append]
    exact List.append_nil _
  · rfl

/-- A run indents the profiles that it has read and goes on as its mode says. -/
theorem runMode_eq_finish (hload : load s o.common = .ok loaded) {ps : List Profile}
    (hread : readProfiles loaded.config s.tree s.input
      (if o.paths = [] then [standardInput] else o.paths) = .ok ps) :
    ∃ notes, notes.filterMap Note.wouldReformat? = [] ∧ ∀ check write,
      runMode s o check write = finish s.tree (do
        let formatted ← formatAll (indentStyle loaded.config o) notes ps
        if check then return reportChanges s.tree o.common.verbose notes formatted
        else return emit write o.common.verbose notes [] s.tree formatted) := by
  obtain ⟨notes, hnotes, hall⟩ := readAllProfiles_of_ok o.common hread loaded.notes
  refine ⟨notes, hnotes.trans (named_of_load hload), fun check write => ?_⟩
  rw [runMode, Command.run, runFormat]
  simp only [hload, hall, bind, Except.bind]
  rfl

/-- The profiles of a run that can read them are read. -/
theorem Readable.readProfiles_eq_ok (h : Readable s o loaded) :
    readProfiles loaded.config s.tree s.input
        (if o.paths = [] then [standardInput] else o.paths) =
      .ok ((inputPaths s loaded.config o).map fun path => ⟨path, textAt s.tree path⟩) := by
  rw [readProfiles, holdsTooLong_of_readable h.readable]
  exact readPaths_of_readable h.not_input h.readable

/-- A run that indents all of its profiles reports them or goes through them. -/
theorem runMode_of_allFormat (h : Readable s o loaded) (hall : AllFormat s o loaded) :
    ∃ notes, notes.filterMap Note.wouldReformat? = [] ∧
      (∀ write, runMode s o true write =
        reportChanges s.tree o.common.verbose notes (formatted s o loaded)) ∧
      ∀ write, runMode s o false write =
        emit write o.common.verbose notes [] s.tree (formatted s o loaded) := by
  obtain ⟨notes, hnotes, hrun⟩ := runMode_eq_finish h.load h.readProfiles_eq_ok
  have heq : formatAll (indentStyle loaded.config o) notes
      ((inputPaths s loaded.config o).map fun path => ⟨path, textAt s.tree path⟩) =
        .ok (formatted s o loaded) := by
    rw [formatAll_of_ok, List.map_map]
    · rfl
    · intro p hp
      obtain ⟨path, hpath, rfl⟩ := List.mem_map.mp hp
      exact hall path hpath
  refine ⟨notes, hnotes, fun write => ?_, fun write => ?_⟩
  · rw [hrun, heq]
    rfl
  · rw [hrun, heq]
    rfl

/-- A run ends with a fault if one of its profiles cannot be indented. -/
theorem runMode_of_not_allFormat (h : Readable s o loaded) (hall : ¬AllFormat s o loaded)
    (check write : Bool) : ∃ f, (runMode s o check write).ending = .fault f := by
  obtain ⟨notes, -, hrun⟩ := runMode_eq_finish h.load h.readProfiles_eq_ok
  have hps : ¬∀ p ∈ (inputPaths s loaded.config o).map
      fun path => (⟨path, textAt s.tree path⟩ : Profile),
      ∃ text, formatText (indentStyle loaded.config o) p.text = .ok text :=
    fun hps => hall fun path hpath => hps _ (List.mem_map_of_mem hpath)
  obtain ⟨f, hf⟩ := formatAll_of_error notes hps
  rw [hrun, hf]
  exact ⟨f, rfl⟩

/-- The paths that checking names are those whose texts change. -/
theorem mem_changedPaths {paths : List Text} {path : Text} :
    path ∈ changedPaths (formattedAt style t paths) ↔
      path ∈ paths ∧ indentedText style (textAt t path) ≠ textAt t path := by
  simp only [changedPaths, formattedAt, List.filterMap_map, List.mem_filterMap,
    Function.comp_apply, Option.ite_none_left_eq_some, Option.some.injEq]
  constructor
  · rintro ⟨q, hq, hne, rfl⟩
    exact ⟨hq, hne⟩
  · rintro ⟨hpath, hne⟩
    exact ⟨path, hpath, hne, rfl⟩

/-- What a run that checks names. -/
theorem named_reportChanges (verbose : Bool) {notes : List Note}
    (hnotes : notes.filterMap Note.wouldReformat? = []) (fs : List (Profile × Text)) :
    (reportChanges t verbose notes fs).named = changedPaths fs := by
  have hmap : ((changedPaths fs).map Note.wouldReformat).filterMap Note.wouldReformat? =
      changedPaths fs := by
    rw [List.filterMap_map]
    exact List.filterMap_some
  rw [Outcome.named, reportChanges, List.filterMap_append, List.filterMap_append, hnotes, hmap,
    List.nil_append]
  cases verbose
  · exact List.append_nil _
  · exact List.append_nil _

/-! ### After writing -/

/-- One of the profiles of the run is at the place. -/
def ProfileAt (s : Surroundings) (o : FormatOptions) (loaded : Loaded) (l : Location) : Prop :=
  ∃ path ∈ inputPaths s loaded.config o, s.tree.locate path = .ok l

/-- What is left of a file by a run. -/
abbrev LeftOf (s : Surroundings) (o : FormatOptions) (loaded : Loaded) :
    Location → File → File → Prop :=
  Rewritten (indentStyle loaded.config o) (ProfileAt s o loaded)

/-- The profile at a path of the run and its indented text. -/
abbrev WritableAt (s : Surroundings) (o : FormatOptions) (loaded : Loaded) (path : Text)
    (l : Location) (f : File) : Prop :=
  Writable (indentStyle loaded.config o) s.tree ⟨path, textAt s.tree path⟩
    (indentedText (indentStyle loaded.config o) (textAt s.tree path)) l f

/-- Every profile of the run stands in a file that can be rewritten. -/
theorem Formattable.writableAt (h : Formattable s o loaded) (hall : AllFormat s o loaded)
    {path : Text} (hpath : path ∈ inputPaths s loaded.config o) :
    ∃ l f, WritableAt s o loaded path l f := by
  obtain ⟨bytes, hread, hdecode⟩ :=
    readProfile_eq_ok.mp (readProfile_textAt (h.readable path hpath))
  obtain ⟨l, f, hleads, -, rfl⟩ := FileTree.read_eq_ok hread
  obtain ⟨m, g, hfind, haccess⟩ := h.writable path hpath
  rw [hleads.find] at hfind
  cases hfind
  exact ⟨l, f, h.not_input path hpath, hleads, haccess, hdecode,
    formatText_indentedText (hall path hpath)⟩

/-- What a run that writes leaves: the profiles with their indented texts, and all else as it
was. -/
structure Written (s : Surroundings) (o : FormatOptions) (loaded : Loaded) (w : FileTree) :
    Prop where
  /-- Only files of profiles have changed. -/
  alike : s.tree.Alike (LeftOf s o loaded) w
  /-- The files of profiles have been rewritten. -/
  read : ∀ path ∈ inputPaths s loaded.config o, ∀ l f, WritableAt s o loaded path l f →
    w.read path = .ok (reindented (indentStyle loaded.config o) f.content)

/-- A run that writes succeeds and prints nothing if all of its profiles can be rewritten. -/
theorem written_of_writableAt (h : Readable s o loaded) (hall : AllFormat s o loaded)
    (hwritable : ∀ path ∈ inputPaths s loaded.config o, ∃ l f, WritableAt s o loaded path l f) :
    (runMode s o false true).ending = .exit 0 ∧ (runMode s o false true).output = [] ∧
      Written s o loaded (runMode s o false true).tree := by
  obtain ⟨notes, -, -, hrun⟩ := runMode_of_allFormat h hall
  have hfs : ∀ e ∈ formatted s o loaded, ∃ l f,
      Writable (indentStyle loaded.config o) s.tree e.1 e.2 l f ∧ ProfileAt s o loaded l := by
    intro e he
    obtain ⟨path, hpath, rfl⟩ := List.mem_map.mp he
    obtain ⟨l, f, hw⟩ := hwritable path hpath
    exact ⟨l, f, hw, path, hpath, hw.leads.locate⟩
  obtain ⟨notes', w, hemit, hw, -, hdone⟩ := emit_write o.common.verbose [] hfs notes
    (FileTree.Alike.refl (fun _ _ => .inl rfl) s.tree)
  rw [hrun, hemit]
  refine ⟨rfl, rfl, hw, fun path hpath l f hat => ?_⟩
  obtain ⟨g, hg, hleft⟩ := hw.leads hat.leads
  obtain ⟨g', hg', hcontent⟩ := hdone _ (List.mem_map_of_mem hpath) l f hat f hat.leads.get?
  obtain rfl : g = g' := Item.file.inj (Option.some.inj (hg.get?.symm.trans hg'))
  rw [hg.read (by rw [hleft.access hat.access]; decide), hcontent]

/-- A run that writes succeeds. -/
theorem written_of_formattable (h : Formattable s o loaded) (hall : AllFormat s o loaded) :
    (runMode s o false true).ending = .exit 0 ∧
      Written s o loaded (runMode s o false true).tree := by
  obtain ⟨hending, -, hw⟩ :=
    written_of_writableAt h.toReadable hall fun path hpath => h.writableAt hall hpath
  exact ⟨hending, hw⟩

variable {w : FileTree}

/-- Writing leaves the indented texts. -/
theorem Written.leaves (hw : Written s o loaded w) (h : Formattable s o loaded)
    (hall : AllFormat s o loaded) {path : Text} (hpath : path ∈ inputPaths s loaded.config o) :
    readProfile w path =
      .ok ⟨path, indentedText (indentStyle loaded.config o) (textAt s.tree path)⟩ := by
  obtain ⟨l, f, hat⟩ := h.writableAt hall hpath
  exact readProfile_eq_ok.mpr ⟨_, hw.read path hpath l f hat, hat.decode_reindented⟩

/-- Writing changes the bytes of the profiles whose texts indentation changes. -/
theorem Written.read_ne_iff (hw : Written s o loaded w) (h : Formattable s o loaded)
    (hall : AllFormat s o loaded) {path : Text} (hpath : path ∈ inputPaths s loaded.config o) :
    w.read path ≠ s.tree.read path ↔
      indentedText (indentStyle loaded.config o) (textAt s.tree path) ≠ textAt s.tree path := by
  obtain ⟨l, f, hat⟩ := h.writableAt hall hpath
  rw [← hat.reindented_ne_iff, hw.read path hpath l f hat,
    hat.leads.read (by rw [hat.access]; decide), Ne, Except.ok.injEq]

/-- The same paths are found after writing. -/
theorem Written.same_paths (hw : Written s o loaded w) (config : Config) :
    inputPaths { s with tree := w } config o = inputPaths s config o :=
  discover_of_alike hw.alike config _

/-- After writing, the same things are loaded and all profiles can be read. -/
theorem Written.toReadable (hw : Written s o loaded w) (h : Formattable s o loaded)
    (hall : AllFormat s o loaded) : Readable { s with tree := w } o loaded where
  load := by
    refine (load_of_alike hw.alike o.common ?_ ?_).trans h.load
    · rintro f l g g' hf hl (rfl | ⟨⟨path, hpath, hat⟩, -⟩)
      · rfl
      · exact absurd (hat.trans hl.symm) (h.not_config path hpath f hf)
    · rintro d name g g' hd (rfl | ⟨⟨path, hpath, hat⟩, -⟩)
      · rfl
      · exact absurd hat (h.not_keywords path hpath d name hd)
  not_input := by
    rw [hw.same_paths]
    exact h.not_input
  readable := by
    rw [hw.same_paths]
    exact fun path hpath => ⟨_, hw.leaves h hall hpath⟩

/-- After writing, all profiles can be indented and none of them changes. -/
theorem Written.unchanged (hw : Written s o loaded w) (h : Formattable s o loaded)
    (hall : AllFormat s o loaded) {path : Text} (hpath : path ∈ inputPaths s loaded.config o) :
    formatText (indentStyle loaded.config o) (textAt w path) = .ok (textAt w path) := by
  have htext : textAt w path =
      indentedText (indentStyle loaded.config o) (textAt s.tree path) := by
    rw [textAt, hw.leaves h hall hpath]
  have hformat := formatText_indentedText (hall path hpath)
  rw [htext, formatText_of_formatText hformat, hformat]

/-! ### The modes together -/

/-- What is printed are the indented texts without their control sequences. -/
theorem output_of_allFormat (h : Readable s o loaded) (hall : AllFormat s o loaded) :
    (runMode s o false false).output =
      ((inputPaths s loaded.config o).map fun path =>
        indentedText (indentStyle loaded.config o) (textAt s.tree path)).flatMap
          Terminal.stripSequences := by
  obtain ⟨notes, -, -, hrun⟩ := runMode_of_allFormat h hall
  rw [hrun, emit_print, formatted, formattedAt, List.flatMap_map, List.flatMap_map]
  rfl

/-- A run that checks ends as the paths say that it names. -/
theorem ending_of_named (h : Readable s o loaded) (hall : AllFormat s o loaded) :
    (runMode s o true false).ending =
      .exit (if (runMode s o true false).named = [] then 0 else 1) := by
  obtain ⟨notes, hnotes, hcheck, -⟩ := runMode_of_allFormat h hall
  rw [hcheck, named_reportChanges _ hnotes]
  rfl

/-- A run that checks names the paths of the profiles whose texts indentation changes. -/
theorem mem_named (h : Readable s o loaded) (hall : AllFormat s o loaded) {path : Text} :
    path ∈ (runMode s o true false).named ↔
      path ∈ inputPaths s loaded.config o ∧
        indentedText (indentStyle loaded.config o) (textAt s.tree path) ≠ textAt s.tree path := by
  obtain ⟨notes, hnotes, hcheck, -⟩ := runMode_of_allFormat h hall
  rw [hcheck, named_reportChanges _ hnotes, formatted, mem_changedPaths]

/-- A run that checks names nothing exactly if indentation changes no text. -/
theorem named_eq_nil_iff (h : Readable s o loaded) (hall : AllFormat s o loaded) :
    (runMode s o true false).named = [] ↔ ∀ path ∈ inputPaths s loaded.config o,
      indentedText (indentStyle loaded.config o) (textAt s.tree path) = textAt s.tree path := by
  rw [List.eq_nil_iff_forall_not_mem]
  refine forall_congr' fun path => ?_
  rw [mem_named h hall, not_and, not_not]

/-- A run for which all profiles are indented already finds nothing and writes nothing. -/
theorem runMode_of_unchanged (h : Readable s o loaded)
    (hsame : ∀ path ∈ inputPaths s loaded.config o,
      formatText (indentStyle loaded.config o) (textAt s.tree path) =
        .ok (textAt s.tree path)) :
    (runMode s o true false).ending = .exit 0 ∧ (runMode s o false true).tree = s.tree := by
  have hall : AllFormat s o loaded := fun path hpath => ⟨_, hsame path hpath⟩
  have hkept : ∀ path ∈ inputPaths s loaded.config o,
      indentedText (indentStyle loaded.config o) (textAt s.tree path) = textAt s.tree path := by
    intro path hpath
    rw [indentedText, hsame path hpath]
  constructor
  · rw [ending_of_named h hall, if_pos ((named_eq_nil_iff h hall).mpr hkept)]
  · obtain ⟨notes, -, -, hrun⟩ := runMode_of_allFormat h hall
    rw [hrun, emit_of_unchanged]
    intro e he
    obtain ⟨path, hpath, rfl⟩ := List.mem_map.mp he
    exact ⟨h.not_input path hpath, hkept path hpath⟩

/-- Writing leaves exactly the indented texts. -/
theorem Written.forall₂_iff (hw : Written s o loaded w) (h : Formattable s o loaded)
    (hall : AllFormat s o loaded) {texts : List Text} :
    List.Forall₂ (fun path text => readProfile w path = .ok ⟨path, text⟩)
        (inputPaths s loaded.config o) texts ↔
      texts = (inputPaths s loaded.config o).map fun path =>
        indentedText (indentStyle loaded.config o) (textAt s.tree path) := by
  have hleaves (path : Text) (hpath : path ∈ inputPaths s loaded.config o) :=
    hw.leaves h hall hpath
  generalize inputPaths s loaded.config o = paths at hleaves
  induction paths generalizing texts with
  | nil => simp
  | cons path rest ih =>
      cases texts with
      | nil => simp
      | cons text texts =>
          rw [List.forall₂_cons, List.map_cons, List.cons.injEq, hleaves path List.mem_cons_self,
            Except.ok.injEq, Profile.mk.injEq]
          refine and_congr ?_ (ih fun q hq => hleaves q (List.mem_cons_of_mem _ hq))
          simp [eq_comm]

/-- The modes agree if all profiles can be indented and none of them holds a control sequence. -/
theorem modesAgree_of_allFormat (h : Formattable s o loaded) (hall : AllFormat s o loaded)
    (hplain : ∀ path ∈ inputPaths s loaded.config o, ¬Terminal.HoldsSequence (textAt s.tree path)) :
    ModesAgree s o (inputPaths s loaded.config o) := by
  obtain ⟨hending, hw⟩ := written_of_formattable h hall
  have hnamed (path : Text) : path ∈ (runMode s o true false).named ↔
      path ∈ inputPaths s loaded.config o ∧
        (runMode s o false true).tree.read path ≠ s.tree.read path := by
    rw [mem_named h.toReadable hall]
    exact and_congr_right fun hpath => (hw.read_ne_iff h hall hpath).symm
  -- After writing, the same run finds its profiles indented.
  obtain ⟨hclean, hstable⟩ := runMode_of_unchanged (hw.toReadable h hall) (by
    rw [hw.same_paths]
    exact fun path hpath => hw.unchanged h hall hpath)
  refine ⟨hending, ⟨_, (hw.forall₂_iff h hall).mpr rfl, ?_⟩, hnamed, fun hsame => ?_,
    fun hdiff => ?_, hclean, hstable⟩
  · rw [output_of_allFormat h.toReadable hall, Terminal.flatMap_stripSequences_eq_iff]
    intro text hout
    obtain ⟨path, hpath, rfl⟩ := List.mem_map.mp hout
    rw [Terminal.holdsSequence_of_formatText (formatText_indentedText (hall path hpath))]
    exact hplain path hpath
  · rw [ending_of_named h.toReadable hall, if_pos]
    refine (named_eq_nil_iff h.toReadable hall).mpr fun path hpath => ?_
    exact not_ne_iff.mp ((hw.read_ne_iff h hall hpath).not.mp (not_not.mpr (hsame path hpath)))
  · obtain ⟨path, hpath, hne⟩ := hdiff
    rw [ending_of_named h.toReadable hall, if_neg]
    exact List.ne_nil_of_mem ((hnamed path).mpr ⟨hpath, hne⟩)

/-- If the modes agree, all profiles can be indented and none of them holds a control
sequence. -/
theorem allFormat_of_modesAgree (h : Formattable s o loaded)
    (hagree : ModesAgree s o (inputPaths s loaded.config o)) :
    AllFormat s o loaded ∧
      ∀ path ∈ inputPaths s loaded.config o, ¬Terminal.HoldsSequence (textAt s.tree path) := by
  have hall : AllFormat s o loaded := by
    by_contra hnot
    obtain ⟨f, hf⟩ := runMode_of_not_allFormat h.toReadable hnot false true
    have hwritten := hagree.written
    rw [hf] at hwritten
    cases hwritten
  obtain ⟨-, hw⟩ := written_of_formattable h hall
  obtain ⟨texts, hleft, hprinted⟩ := hagree.printed
  obtain rfl := (hw.forall₂_iff h hall).mp hleft
  rw [output_of_allFormat h.toReadable hall, Terminal.flatMap_stripSequences_eq_iff] at hprinted
  refine ⟨hall, fun path hpath => ?_⟩
  rw [← Terminal.holdsSequence_of_formatText (formatText_indentedText (hall path hpath))]
  exact hprinted _ (List.mem_map_of_mem hpath)

/-! ### A directory with one profile -/

/-- A working directory with one file and nothing else. -/
def directoryWith (bytes : List UInt8) : Surroundings :=
  { tree := FileTree.empty.put ["a.profile".toList] (.file ⟨bytes, .full⟩), root := [] }

/-- The options that ask for the profile in this file. -/
def soleProfile : FormatOptions :=
  { paths := ["a.profile".toList] }

/-- What is loaded where there is neither a configuration file nor a keyword file. -/
def builtinOnly : Loaded :=
  ⟨{}, Catalog.ofDeclarations (builtinDeclarations ++ [] ++ []), []⟩

/-- The file is the only profile. -/
theorem inputPaths_directoryWith (bytes : List UInt8) :
    inputPaths (directoryWith bytes) builtinOnly.config soleProfile = ["a.profile".toList] := rfl

/-- The file is read if its bytes are a text. -/
theorem readProfile_directoryWith {bytes : List UInt8} {text : Text}
    (h : Utf8.decode bytes = .ok text) :
    readProfile (directoryWith bytes).tree "a.profile".toList = .ok ⟨"a.profile".toList, text⟩ :=
  readProfile_eq_ok.mpr ⟨bytes, rfl, h⟩

/-- The file can be formatted if its bytes are a text. -/
theorem formattable_directoryWith {bytes : List UInt8} {text : Text}
    (h : Utf8.decode bytes = .ok text) :
    Formattable (directoryWith bytes) soleProfile builtinOnly where
  load := rfl
  not_input := by
    rw [inputPaths_directoryWith]
    decide
  readable := by
    rw [inputPaths_directoryWith]
    exact List.forall_mem_singleton.mpr ⟨text, readProfile_directoryWith h⟩
  writable := by
    rw [inputPaths_directoryWith]
    exact List.forall_mem_singleton.mpr ⟨["a.profile".toList], ⟨bytes, .full⟩, rfl, rfl⟩
  not_config := by
    intro path _ f hf
    have hnone : ConfigFile.find (directoryWith bytes).tree (directoryWith bytes).root
        soleProfile.common.config = .ok none := rfl
    rw [hnone] at hf
    cases hf
  not_keywords := by
    intro path _ d name hd
    have hnone : (directoryWith bytes).tree.directory?
        (Path.normal KeywordFile.directoryName) = none := rfl
    rw [hnone] at hd
    cases hd

/-- **The modes agree** exactly if all profiles can be indented and none of them holds a control
sequence. -/
theorem modesAgree_iff (h : Formattable s o loaded) :
    ModesAgree s o (inputPaths s loaded.config o) ↔
      ∀ path ∈ inputPaths s loaded.config o, ∀ text,
        readProfile s.tree path = .ok ⟨path, text⟩ →
          (∃ out, formatText (indentStyle loaded.config o) text = .ok out) ∧
            ¬Terminal.HoldsSequence text := by
  constructor
  · intro hagree path hpath text hread
    obtain ⟨hall, hplain⟩ := allFormat_of_modesAgree h hagree
    have htext : textAt s.tree path = text := by rw [textAt, hread]
    rw [← htext]
    exact ⟨hall path hpath, hplain path hpath⟩
  · intro hprofiles
    have hread {path : Text} (hpath : path ∈ inputPaths s loaded.config o) :=
      hprofiles path hpath _ (readProfile_textAt (h.readable path hpath))
    exact modesAgree_of_allFormat h (fun path hpath => (hread hpath).1)
      fun path hpath => (hread hpath).2

/-- The modes agree about a profile without control sequences. -/
theorem modesAgree_iff_net :
    Formattable (directoryWith (Utf8.encode "net\n".toList)) soleProfile builtinOnly ∧
      (ModesAgree (directoryWith (Utf8.encode "net\n".toList)) soleProfile ["a.profile".toList] ↔
        ∀ path ∈ ["a.profile".toList], ∀ text,
          readProfile (directoryWith (Utf8.encode "net\n".toList)).tree path = .ok ⟨path, text⟩ →
            (∃ out, formatText (indentStyle {} soleProfile) text = .ok out) ∧
              ¬Terminal.HoldsSequence text) :=
  have h := formattable_directoryWith (Utf8.decode_encode "net\n".toList)
  ⟨h, modesAgree_iff h⟩

/-- Printing leaves a control sequence out that writing keeps. -/
theorem not_modesAgree_of_sequence :
    Formattable (directoryWith (Utf8.encode "\x1b[mnet\n".toList)) soleProfile builtinOnly ∧
      ¬ModesAgree (directoryWith (Utf8.encode "\x1b[mnet\n".toList)) soleProfile
        ["a.profile".toList] := by
  have hdecode := Utf8.decode_encode "\x1b[mnet\n".toList
  have h := formattable_directoryWith hdecode
  refine ⟨h, fun hagree => ?_⟩
  obtain ⟨-, hplain⟩ := allFormat_of_modesAgree h hagree
  refine hplain "a.profile".toList List.mem_cons_self ?_
  rw [textAt, readProfile_directoryWith hdecode]
  exact ⟨"\x1b[m".toList, ⟨[], 'm', List.forall_mem_nil _, by decide, rfl⟩,
    [], "net\n".toList, by decide⟩

end SandboxProfile
