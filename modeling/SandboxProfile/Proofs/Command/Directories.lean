import SandboxProfile.Proofs.Command.Modes
import SandboxProfile.Proofs.Profile.Found

/-!
# Profiles in directories are read and rewritten

Whoever asks for a directory asks for the files in it. So each of the files that are found is read,
whatever is on the standard input, and formatting in place rewrites each of them and prints nothing.

This fails for one file. If the working directory holds a profile without a suffix whose name is the
path of the standard input, it is found, but the standard input is read in its place; the file is
not rewritten, and what has been read is printed. In every other directory the same name is that of
a file like any other.

## Main definitions

* `ReadsFound` says that what is found is read and rewritten.

## Main results

* `readsFound_iff` — when what is found is read and rewritten.
-/

namespace SandboxProfile

/-! ### Statement -/

/-- The profile has the path and the text of a file that is found. -/
def IsFoundProfile (c : Config) (t : FileTree) (paths : List Text) (path : Text) (p : Profile) :
    Prop :=
  p.path = path ∧ ∃ l f, FoundFile c t paths path l f ∧ Utf8.decode f.content = .ok p.text

/-- A run that formats in place loads what it needs, is given directories, and may write to all
files that are found in them. -/
structure CanRewrite (s : Surroundings) (o : FormatOptions) (loaded : Loaded) : Prop where
  /-- The configuration and the catalog are loaded. -/
  load : load s o.common = .ok loaded
  /-- There are paths. -/
  paths_ne_nil : o.paths ≠ []
  /-- The files that are found may be written. -/
  writable : ∀ path l f, FoundFile loaded.config s.tree o.paths path l f → f.access = .full

/-- All files that are found can be indented. -/
def CanIndentFound (s : Surroundings) (o : FormatOptions) (loaded : Loaded) : Prop :=
  ∀ path l f text, FoundFile loaded.config s.tree o.paths path l f →
    Utf8.decode f.content = .ok text →
      ∃ out, formatText (indentStyle loaded.config o) text = .ok out

/-- A run that formats in place rewrites what is found, and nothing else. -/
structure RewritesFound (s : Surroundings) (o : FormatOptions) (loaded : Loaded) : Prop where
  /-- It succeeds. -/
  ending : (runMode s o false true).ending = .exit 0
  /-- It prints nothing. -/
  output : (runMode s o false true).output = []
  /-- The files that are found have their indented bytes. -/
  rewritten : ∀ path l f, FoundFile loaded.config s.tree o.paths path l f →
    (runMode s o false true).tree.get? l =
      some (.file ⟨reindented (indentStyle loaded.config o) f.content, .full⟩)
  /-- All else is as it was. -/
  kept : ∀ l, (∀ path f, ¬FoundFile loaded.config s.tree o.paths path l f) →
    (runMode s o false true).tree.get? l = s.tree.get? l

/-- What is found in the directories is read, and rewritten where it can be. -/
structure ReadsFound (s : Surroundings) (o : FormatOptions) (loaded : Loaded) : Prop where
  /-- Each file that is found is read once, in the order in which it is found, and the standard
  input does not matter. -/
  read : ∃ ps, (∀ input, readProfiles loaded.config s.tree input o.paths = .ok ps) ∧
    List.Forall₂ (IsFoundProfile loaded.config s.tree o.paths)
      (discover loaded.config s.tree o.paths) ps
  /-- Formatting in place rewrites them. -/
  written : CanRewrite s o loaded → RewritesFound s o loaded

/-! ### Reading -/

variable {t : FileTree} {paths : List Text} {ps : List Profile} {input input' : List UInt8}

/-- The same profiles are read from two standard inputs only if these do not differ, once the
standard input is read. -/
theorem readInput_eq_of_readPaths (h : readPaths t input paths = .ok ps)
    (h' : readPaths t input' paths = .ok ps) (hmem : standardInput ∈ paths) :
    readInput input = readInput input' := by
  induction paths generalizing ps with
  | nil => cases hmem
  | cons path rest ih =>
      rw [readPaths] at h h'
      by_cases hinput : path = standardInput
      · rw [if_pos hinput] at h h'
        obtain ⟨p, others, hp, -, rfl⟩ := combine_eq_ok.mp h
        obtain ⟨p', others', hp', -, heq⟩ := combine_eq_ok.mp h'
        rw [hp, hp', (List.cons.inj heq).1]
      · rw [if_neg hinput] at h h'
        obtain ⟨p, others, -, hothers, rfl⟩ := combine_eq_ok.mp h
        obtain ⟨p', others', -, hothers', heq⟩ := combine_eq_ok.mp h'
        rw [(List.cons.inj heq).2] at hothers'
        refine ih hothers hothers' ((List.mem_cons.mp hmem).resolve_left ?_)
        exact fun heq => hinput heq.symm

variable {s : Surroundings} {o : FormatOptions} {loaded : Loaded} {c : Config}

/-- If nothing that is found stands for the standard input, files are read. -/
theorem ReadableDirectories.readProfiles_eq_ok (h : ReadableDirectories c t paths)
    (hinput : standardInput ∉ discover c t paths) (input : List UInt8) :
    readProfiles c t input paths =
      .ok ((discover c t paths).map fun path => ⟨path, textAt t path⟩) := by
  rw [readProfiles, holdsTooLong_of_readable fun path hpath => h.exists_readProfile hpath]
  exact readPaths_of_readable (fun path hpath hsame => hinput (hsame ▸ hpath))
    fun path hpath => h.exists_readProfile hpath

/-- The text at a path that is found is that of the file. -/
theorem ReadableDirectories.isFoundProfile (h : ReadableDirectories c t paths) {path : Text}
    (hpath : path ∈ discover c t paths) : IsFoundProfile c t paths path ⟨path, textAt t path⟩ := by
  obtain ⟨l, f, hfound⟩ := (mem_discover_iff h.named h.directories).mp hpath
  refine ⟨rfl, l, f, hfound, (h.readProfile_eq_ok hfound).mp ?_⟩
  exact readProfile_textAt (h.exists_readProfile hpath)

/-! ### Rewriting -/

theorem inputPaths_of_ne_nil (hpaths : o.paths ≠ []) :
    inputPaths s c o = discover c s.tree o.paths := by
  rw [inputPaths, if_neg hpaths]

/-- A run that is given directories can read its profiles. -/
theorem CanRewrite.toReadable (hcan : CanRewrite s o loaded)
    (h : ReadableDirectories loaded.config s.tree o.paths)
    (hinput : standardInput ∉ discover loaded.config s.tree o.paths) : Readable s o loaded where
  load := hcan.load
  not_input := by
    rw [inputPaths_of_ne_nil hcan.paths_ne_nil]
    exact fun path hpath hsame => hinput (hsame ▸ hpath)
  readable := by
    rw [inputPaths_of_ne_nil hcan.paths_ne_nil]
    exact fun path hpath => h.exists_readProfile hpath

/-- All profiles of the run can be indented exactly if all files can that are found. -/
theorem CanRewrite.allFormat_iff (hcan : CanRewrite s o loaded)
    (h : ReadableDirectories loaded.config s.tree o.paths) :
    AllFormat s o loaded ↔ CanIndentFound s o loaded := by
  rw [AllFormat, inputPaths_of_ne_nil hcan.paths_ne_nil]
  constructor
  · intro hall path l f text hfound hdecode
    have hpath : path ∈ discover loaded.config s.tree o.paths :=
      (mem_discover_iff h.named h.directories).mpr ⟨l, f, hfound⟩
    have htext : textAt s.tree path = text := by
      rw [textAt, (h.readProfile_eq_ok hfound).mpr hdecode]
    rw [← htext]
    exact hall path hpath
  · intro hindent path hpath
    obtain ⟨-, l, f, hfound, hdecode⟩ := h.isFoundProfile hpath
    exact hindent path l f _ hfound hdecode

/-- Every file that is found can be rewritten. -/
theorem CanRewrite.writableAt (hcan : CanRewrite s o loaded)
    (h : ReadableDirectories loaded.config s.tree o.paths)
    (hinput : standardInput ∉ discover loaded.config s.tree o.paths)
    (hindent : CanIndentFound s o loaded) {path : Text} {l : Location} {f : File}
    (hfound : FoundFile loaded.config s.tree o.paths path l f) :
    WritableAt s o loaded path l f := by
  have hpath : path ∈ discover loaded.config s.tree o.paths :=
    (mem_discover_iff h.named h.directories).mpr ⟨l, f, hfound⟩
  have hdecode : Utf8.decode f.content = .ok (textAt s.tree path) :=
    (h.readProfile_eq_ok hfound).mp (readProfile_textAt (h.exists_readProfile hpath))
  exact ⟨fun hsame => hinput (hsame ▸ hpath), h.leads hfound, hcan.writable path l f hfound,
    hdecode, formatText_indentedText (hindent path l f _ hfound hdecode)⟩

/-- **A run that formats in place rewrites what is found**, if no path of it stands for the standard
input. -/
theorem CanRewrite.rewritesFound (hcan : CanRewrite s o loaded)
    (h : ReadableDirectories loaded.config s.tree o.paths)
    (hinput : standardInput ∉ discover loaded.config s.tree o.paths)
    (hindent : CanIndentFound s o loaded) : RewritesFound s o loaded := by
  have hfound {path : Text} (hpath : path ∈ inputPaths s loaded.config o) :
      ∃ l f, FoundFile loaded.config s.tree o.paths path l f := by
    rw [inputPaths_of_ne_nil hcan.paths_ne_nil] at hpath
    exact (mem_discover_iff h.named h.directories).mp hpath
  have hmem {path : Text} {l : Location} {f : File}
      (hpath : FoundFile loaded.config s.tree o.paths path l f) :
      path ∈ inputPaths s loaded.config o := by
    rw [inputPaths_of_ne_nil hcan.paths_ne_nil]
    exact (mem_discover_iff h.named h.directories).mpr ⟨l, f, hpath⟩
  obtain ⟨hending, houtput, hwritten⟩ := written_of_writableAt (hcan.toReadable h hinput)
    ((hcan.allFormat_iff h).mpr hindent) fun path hpath => by
      obtain ⟨l, f, hpath⟩ := hfound hpath
      exact ⟨l, f, hcan.writableAt h hinput hindent hpath⟩
  refine ⟨hending, houtput, fun path l f hpath => ?_, fun l hnone => ?_⟩
  · have hat : WritableAt s o loaded path l f := hcan.writableAt h hinput hindent hpath
    obtain ⟨g, hg, hleft⟩ := hwritten.alike.leads hat.leads
    have haccess : g.access = .full := hleft.access hat.access
    have hread := hwritten.read path (hmem hpath) l f hat
    rw [hg.read (by rw [haccess]; decide)] at hread
    rw [hg.get?, ← Except.ok.inj hread, ← haccess]
  · rcases hwritten.alike.get? l with ⟨hs, hw⟩ | ⟨v, w, hs, hw, hvw⟩
    · rw [hs, hw]
    · rw [hs, hw]
      cases hvw with
      | directory => rfl
      | @file f g hleft =>
          -- A file that has changed is one that a path of the run leads to.
          rcases hleft with rfl | ⟨⟨path, hpath, hlocate⟩, -⟩
          · rfl
          · obtain ⟨m, f', hpath⟩ := hfound hpath
            obtain rfl : m = l := Except.ok.inj ((h.leads hpath).locate.symm.trans hlocate)
            exact absurd hpath (hnone path f')

/-- **When what is found is read and rewritten**: exactly if none of the paths that are found stands
for the standard input, and what is to be rewritten can be indented. -/
theorem readsFound_iff (h : ReadableDirectories loaded.config s.tree o.paths) :
    ReadsFound s o loaded ↔ ¬TakenForInput loaded.config s.tree o.paths ∧
      (CanRewrite s o loaded → CanIndentFound s o loaded) := by
  rw [← standardInput_mem_discover_iff h.named h.directories]
  constructor
  · rintro ⟨⟨ps, hread, -⟩, hwritten⟩
    have hinput : standardInput ∉ discover loaded.config s.tree o.paths := by
      intro hmem
      have hpaths (text : Text) := readPaths_of_readProfiles (hread (Utf8.encode text))
      have hsame := readInput_eq_of_readPaths (hpaths ['a']) (hpaths ['b']) hmem
      rw [readInput, readInput, Utf8.decode_encode, Utf8.decode_encode] at hsame
      cases hsame
    refine ⟨hinput, fun hcan => (hcan.allFormat_iff h).mp ?_⟩
    by_contra hnot
    obtain ⟨fault, hfault⟩ := runMode_of_not_allFormat (hcan.toReadable h hinput) hnot false true
    rw [(hwritten hcan).ending] at hfault
    cases hfault
  · rintro ⟨hinput, hindent⟩
    refine ⟨⟨_, fun input => h.readProfiles_eq_ok hinput input, ?_⟩,
      fun hcan => hcan.rewritesFound h hinput (hindent hcan)⟩
    rw [List.forall₂_map_right_iff]
    exact List.forall₂_same.mpr fun path hpath => h.isFoundProfile hpath

/-! ### Files that are named like the standard input -/

/-- A configuration file by which files without a suffix are profiles. -/
def withoutSuffix : Text :=
  "[files]\nextensions = [\"\"]\n".toList

/-- A directory inside of the working directory with a file that is named like the standard input,
which is no text. -/
def namedLikeInput : Surroundings where
  tree := ((FileTree.empty.put [Config.fileName] (.file ⟨Utf8.encode withoutSuffix, .full⟩)).put
    ["etc".toList] .directory).put
      ["etc".toList, standardInput] (.file ⟨Utf8.encode "net\n".toList, .full⟩)
  root := []
  input := [0xff]

/-- The options that ask for this directory. -/
def soleDirectory : FormatOptions :=
  { paths := ["etc".toList] }

/-- Its files may be written, and they are texts that can be indented. -/
theorem content_of_namedLikeInput {l : Location} {f : File}
    (h : namedLikeInput.tree.get? l = some (.file f)) :
    ∃ text, f = ⟨Utf8.encode text, .full⟩ ∧ ∃ out, formatText {} text = .ok out := by
  have hitems : namedLikeInput.tree.items =
      [([Config.fileName], .file ⟨Utf8.encode withoutSuffix, .full⟩), (["etc".toList], .directory),
        (["etc".toList, standardInput], .file ⟨Utf8.encode "net\n".toList, .full⟩)] := rfl
  have hmem := FileTree.mem_items_of_get?_file h
  rw [hitems] at hmem
  rcases List.mem_cons.mp hmem with heq | hmem
  · obtain ⟨-, hf⟩ := Prod.mk.inj heq
    exact ⟨withoutSuffix, Item.file.inj hf, _, rfl⟩
  · rcases List.mem_cons.mp hmem with heq | hmem
    · cases heq
    · obtain ⟨-, hf⟩ := Prod.mk.inj (List.mem_singleton.mp hmem)
      exact ⟨"net\n".toList, Item.file.inj hf, _, rfl⟩

/-- In another directory such a file is read and rewritten, although the standard input is no
text. -/
theorem readsFound_namedLikeInput :
    ∃ loaded, CanRewrite namedLikeInput soleDirectory loaded ∧
      ReadableDirectories loaded.config namedLikeInput.tree soleDirectory.paths ∧
      discover loaded.config namedLikeInput.tree soleDirectory.paths = ["etc/-".toList] ∧
      ReadsFound namedLikeInput soleDirectory loaded := by
  have hany : (load namedLikeInput soleDirectory.common).toOption.any (fun loaded =>
      decide (loaded.config.extensions = [[]] ∧ loaded.config.exclude = [] ∧
        loaded.config.indent = {})) = true := by decide +kernel
  obtain ⟨⟨⟨indent, format, extensions, exclude, keywords⟩, catalog, notes⟩, hload, hconfig⟩ :=
    exists_eq_ok_of_any hany
  obtain ⟨rfl, rfl, rfl⟩ := of_decide_eq_true hconfig
  have hfound : discover ⟨{}, format, [[]], [], keywords⟩ namedLikeInput.tree soleDirectory.paths =
      ["etc/-".toList] := rfl
  have hreadable : ReadableDirectories ⟨{}, format, [[]], [], keywords⟩ namedLikeInput.tree
      soleDirectory.paths := by
    refine ⟨by decide +kernel, by decide +kernel, ?_, ?_, ?_⟩
    · exact List.forall_mem_singleton.mpr ⟨by decide, ["etc".toList], rfl⟩
    · rw [hfound]
      decide +kernel
    · rintro path l f ⟨-, -, -, -, -, -, -, -, hget, -⟩
      obtain ⟨text, rfl, -⟩ := content_of_namedLikeInput hget
      exact ⟨nofun, Utf8.isText_iff.mpr ⟨text, rfl⟩⟩
  have hcan : CanRewrite namedLikeInput soleDirectory
      ⟨⟨{}, format, [[]], [], keywords⟩, catalog, notes⟩ := by
    refine ⟨hload, List.cons_ne_nil _ _, ?_⟩
    rintro path l f ⟨-, -, -, -, -, -, -, -, hget, -⟩
    obtain ⟨text, rfl, -⟩ := content_of_namedLikeInput hget
    rfl
  refine ⟨_, hcan, hreadable, hfound, (readsFound_iff hreadable).mpr ⟨?_, fun _ => ?_⟩⟩
  · rintro ⟨⟨directory, hdirectory, hhere⟩, -⟩
    obtain rfl := List.mem_singleton.mp hdirectory
    exact absurd hhere (by decide)
  · rintro path l f text ⟨-, -, -, -, -, -, -, -, hget, -⟩ hdecode
    obtain ⟨text', rfl, hformat⟩ := content_of_namedLikeInput hget
    rw [Utf8.decode_encode] at hdecode
    rw [← Except.ok.inj hdecode]
    exact hformat

/-- A working directory with a file that is named like the standard input. -/
def takenForInput : Surroundings where
  tree := FileTree.empty.put [standardInput] (.file ⟨Utf8.encode "  noroot\n".toList, .full⟩)
  root := []

/-- What is loaded if files without a suffix are profiles. -/
def noSuffix : Loaded :=
  { builtinOnly with config := { extensions := [[]] } }

/-- The standard input is read in the place of the file that is found. -/
theorem readProfiles_takenForInput (text : Text) :
    readProfiles noSuffix.config takenForInput.tree (Utf8.encode text) [Path.here] =
      .ok [⟨standardInput, unifyBreaks text⟩] := by
  have hshort : holdsTooLong takenForInput.tree [Path.here] = false := rfl
  have hfound : discover noSuffix.config takenForInput.tree [Path.here] = [standardInput] := rfl
  rw [readProfiles, hshort, hfound, if_neg Bool.false_ne_true, readPaths, if_pos rfl, readInput,
    Utf8.decode_encode]
  rfl

/-- In the working directory such a file can be read and is found, but it is not read. -/
theorem not_readsFound_takenForInput :
    ReadableDirectories noSuffix.config takenForInput.tree [Path.here] ∧
      FoundFile noSuffix.config takenForInput.tree [Path.here] standardInput [standardInput]
        ⟨Utf8.encode "  noroot\n".toList, .full⟩ ∧
      readProfiles noSuffix.config takenForInput.tree (Utf8.encode "abc\n".toList) [Path.here] =
        .ok [⟨standardInput, "abc\n".toList⟩] ∧
      ¬ReadsFound takenForInput { paths := [Path.here] } noSuffix := by
  have hfile {l : Location} {f : File} (h : takenForInput.tree.get? l = some (.file f)) :
      f = ⟨Utf8.encode "  noroot\n".toList, .full⟩ := by
    have hitem := List.mem_singleton.mp (FileTree.mem_items_of_get?_file h)
    exact Item.file.inj (Prod.mk.inj hitem).2
  refine ⟨⟨by decide +kernel, by decide +kernel, ?_, by decide +kernel, ?_⟩, ?_,
    readProfiles_takenForInput _, ?_⟩
  · exact List.forall_mem_singleton.mpr ⟨by decide, [], rfl⟩
  · rintro path l f ⟨-, -, -, -, -, -, -, -, hget, -⟩
    rw [hfile hget]
    exact ⟨nofun, Utf8.isText_iff.mpr ⟨_, rfl⟩⟩
  · exact ⟨Path.here, List.mem_cons_self, [], [], standardInput, rfl, by decide, rfl, rfl, rfl,
      by decide, List.forall_mem_nil _⟩
  · rintro ⟨⟨ps, hread, -⟩, -⟩
    -- Two standard inputs give two lists of profiles.
    have hempty := (readProfiles_takenForInput []).symm.trans (hread _)
    have hother := (readProfiles_takenForInput ['a']).symm.trans (hread _)
    cases hempty.trans hother.symm

end SandboxProfile
