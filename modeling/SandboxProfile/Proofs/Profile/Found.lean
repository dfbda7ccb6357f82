import SandboxProfile.Proofs.Profile.Discovery
import SandboxProfile.Proofs.Profile.Reading
import SandboxProfile.Proofs.Text.Sequence

/-!
# Files that are found in directories

A directory is replaced by paths, and each of these paths is followed again when its profile is
read. The path of a file that was found leads back to that file, since it has the names that lead to
the directory and on from there. But not every path is followed: there is one that stands for the
standard input. A file in the working directory can have this path, and then it is found but not
read.

What is in the tree is as a system has it: names are proper, everything is in a directory, and a
path that is to be opened is not too long.

## Main definitions

* `FoundFile` says that a file is found in one of several directories, and under which path.
* `TakenForInput` says that a file is found whose path stands for the standard input.
* `ReadableDirectories` says that there are only directories, and that what is found can be read.

## Main results

* `mem_discover_iff` — the paths that are found are those of files.
* `ReadableDirectories.leads` — the path of a file that is found leads to the file.
* `standardInput_mem_discover_iff` — when a path that is found stands for the standard input.
-/

namespace SandboxProfile

variable {c : Config} {t : FileTree} {paths : List Text} {path : Text} {l : Location} {f : File}

/-- The file at the place is found under the path: proper names lead to it from one of the
directories, its suffix is that of a profile, and no pattern matches its name or its path. -/
def FoundFile (c : Config) (t : FileTree) (paths : List Text) (path : Text) (l : Location)
    (f : File) : Prop :=
  ∃ directory ∈ paths, ∃ d outer name, t.directory? (Path.normal directory) = some d ∧
    (∀ n ∈ outer ++ [name], Path.IsName n) ∧ l = d ++ (outer ++ [name]) ∧
    t.get? l = some (.file f) ∧ path = Path.below (Path.normal directory) (outer ++ [name]) ∧
    Path.suffix name ∈ c.extensions ∧
    ∀ pattern ∈ c.exclude, Glob.isMatch pattern name = false ∧ Glob.isMatch pattern path = false

/-- In the working directory a file is found whose path stands for the standard input. -/
def TakenForInput (c : Config) (t : FileTree) (paths : List Text) : Prop :=
  (∃ directory ∈ paths, Path.normal directory = Path.here) ∧
    (∃ f, t.get? [standardInput] = some (.file f)) ∧ [] ∈ c.extensions ∧
    ∀ pattern ∈ c.exclude, Glob.isMatch pattern standardInput = false

/-- The paths are those of directories, and the files that are found there can be read. -/
structure ReadableDirectories (c : Config) (t : FileTree) (paths : List Text) : Prop where
  /-- Everything has a proper name. -/
  named : t.IsNamed
  /-- Everything is in a directory. -/
  closed : t.IsClosed
  /-- There is a directory at every path, and none stands for the standard input. -/
  directories : ∀ p ∈ paths, p ≠ standardInput ∧ ∃ d, t.directory? (Path.normal p) = some d
  /-- The paths that are found can be opened. -/
  opened : ∀ p ∈ discover c t paths, Path.CanBeOpened p
  /-- The files that are found may be read and are texts. -/
  readable : ∀ p l f, FoundFile c t paths p l f → f.access ≠ .none ∧ Utf8.IsText f.content

/-! ### Paths that are found -/

/-- **The paths that are found are those of files.** -/
theorem mem_discover_iff (hnamed : t.IsNamed)
    (hdirectories : ∀ p ∈ paths, p ≠ standardInput ∧ ∃ d, t.directory? (Path.normal p) = some d) :
    path ∈ discover c t paths ↔ ∃ l f, FoundFile c t paths path l f := by
  have hexpand {p : Text} (hp : p ∈ paths) {d : Location}
      (hd : t.directory? (Path.normal p) = some d) :
      path ∈ expand c t p ↔ IsProfileIn c t (Path.normal p) d path := by
    rw [expand, if_neg (hdirectories p hp).1]
    simp only [hd]
    exact mem_profilesIn_iff hnamed
  rw [discover, List.mem_flatMap]
  constructor
  · rintro ⟨p, hp, hpath⟩
    obtain ⟨d, hd⟩ := (hdirectories p hp).2
    obtain ⟨outer, name, f, hnames, hget, hpath, hprofile⟩ := (hexpand hp hd).mp hpath
    exact ⟨_, f, p, hp, d, outer, name, hd, hnames, rfl, hget, hpath, hprofile⟩
  · rintro ⟨-, f, p, hp, d, outer, name, hd, hnames, rfl, hget, hpath, hprofile⟩
    exact ⟨p, hp, (hexpand hp hd).mpr ⟨outer, name, f, hnames, hget, hpath, hprofile⟩⟩

/-- **The path of a file that is found leads to the file.** -/
theorem ReadableDirectories.leads (h : ReadableDirectories c t paths)
    (hfound : FoundFile c t paths path l f) : t.Leads path l f := by
  have hopen : Path.CanBeOpened path :=
    h.opened path ((mem_discover_iff h.named h.directories).mpr ⟨l, f, hfound⟩)
  obtain ⟨p, -, d, outer, name, hd, hnames, rfl, hget, rfl, -⟩ := hfound
  have hne : outer ++ [name] ≠ [] := List.append_ne_nil_of_right_ne_nil _ (List.cons_ne_nil _ _)
  refine ⟨FileTree.locate_below h.closed hd hne hnames hget hopen, hget, ?_, hopen.no_nul⟩
  exact Path.endsInSlash_below (hnames name (List.mem_append_right _ List.mem_cons_self)) _

/-- A file that is found is read as the text of its bytes. -/
theorem ReadableDirectories.readProfile_eq_ok (h : ReadableDirectories c t paths)
    (hfound : FoundFile c t paths path l f) {text : Text} :
    readProfile t path = .ok ⟨path, text⟩ ↔ Utf8.decode f.content = .ok text := by
  have hread : t.read path = .ok f.content :=
    (h.leads hfound).read (h.readable path l f hfound).1
  rw [SandboxProfile.readProfile_eq_ok, hread]
  constructor
  · rintro ⟨bytes, hbytes, hdecode⟩
    obtain rfl := Except.ok.inj hbytes
    exact hdecode
  · exact fun hdecode => ⟨_, rfl, hdecode⟩

/-- Every path that is found is that of a file that is read. -/
theorem ReadableDirectories.exists_readProfile (h : ReadableDirectories c t paths)
    (hpath : path ∈ discover c t paths) : ∃ text, readProfile t path = .ok ⟨path, text⟩ := by
  obtain ⟨l, f, hfound⟩ := (mem_discover_iff h.named h.directories).mp hpath
  obtain ⟨text, hdecode⟩ := Utf8.decode_ok_iff.mpr (h.readable path l f hfound).2
  exact ⟨text, (h.readProfile_eq_ok hfound).mpr hdecode⟩

/-! ### The path of the standard input -/

/-- Only the path of something immediately inside of the working directory has no slash. -/
theorem below_eq_standardInput {inner : List Text} (hnames : ∀ n ∈ inner, Path.IsName n)
    (hne : inner ≠ []) {directory : Text} :
    Path.below directory inner = standardInput ↔
      directory = Path.here ∧ inner = [standardInput] := by
  constructor
  · intro h
    have hslash : '/' ∉ Path.below directory inner := by
      rw [h]
      decide
    have hhere : directory = Path.here := by
      by_contra hdirectory
      rw [Path.below.eq_2 _ _ hne, if_neg hdirectory] at hslash
      split at hslash
      · rename_i hend
        have hlast : '/' ∈ directory := List.mem_of_getLast? (of_decide_eq_true hend)
        exact hslash (List.mem_append_left _ hlast)
      · exact hslash (List.mem_append_right _ List.mem_cons_self)
    refine ⟨hhere, ?_⟩
    have hinner := Path.names_below hnames hne directory
    rw [h, if_pos hhere, List.nil_append] at hinner
    exact hinner.symm
  · rintro ⟨rfl, rfl⟩
    rfl

/-- **When a path that is found stands for the standard input.** -/
theorem standardInput_mem_discover_iff (hnamed : t.IsNamed)
    (hdirectories : ∀ p ∈ paths, p ≠ standardInput ∧ ∃ d, t.directory? (Path.normal p) = some d) :
    standardInput ∈ discover c t paths ↔ TakenForInput c t paths := by
  have hhere {d : Location} (hd : t.directory? Path.here = some d) : d = [] := by
    obtain ⟨hlocate, -⟩ := FileTree.directory?_eq_some_iff.mp hd
    exact (Except.ok.inj hlocate).symm
  rw [mem_discover_iff hnamed hdirectories]
  constructor
  · rintro ⟨-, f, p, hp, d, outer, name, hd, hnames, rfl, hget, hpath, hsuffix, hpatterns⟩
    have hne : outer ++ [name] ≠ [] := List.append_ne_nil_of_right_ne_nil _ (List.cons_ne_nil _ _)
    obtain ⟨hnormal, hinner⟩ := (below_eq_standardInput hnames hne).mp hpath.symm
    have hlast := congrArg List.getLast? hinner
    rw [List.getLast?_concat] at hlast
    obtain rfl : name = standardInput := Option.some.inj hlast
    rw [hnormal] at hd
    rw [hhere hd, hinner] at hget
    exact ⟨⟨p, hp, hnormal⟩, ⟨f, hget⟩, hsuffix, fun pattern h => (hpatterns pattern h).2⟩
  · rintro ⟨⟨p, hp, hnormal⟩, ⟨f, hget⟩, hsuffix, hpatterns⟩
    obtain ⟨d, hd⟩ := (hdirectories p hp).2
    have hd' := hd
    rw [hnormal] at hd'
    obtain rfl := hhere hd'
    refine ⟨_, f, p, hp, [], [], standardInput, hd, by decide, rfl, hget, ?_, hsuffix, ?_⟩
    · rw [hnormal]
      rfl
    · exact fun pattern h => ⟨hpatterns pattern h, hpatterns pattern h⟩

end SandboxProfile
