import Mathlib.Data.List.Flatten
import SandboxProfile.Profile.Reading
import SandboxProfile.Proofs.FileTree.Listing

/-!
# Which profiles are found

A path of a directory stands for the profiles inside of it, and every other path for itself. Here it
is said what these profiles are, without walking through the tree: the files to which proper names
lead from the directory, as far as their suffix and the patterns admit them, in the order of the
names in their paths, so that none comes twice.

What is found follows from the names in the tree alone, not from what is in the files. A
configuration with more suffixes and fewer patterns finds all that another one does and maybe more,
in the same order; what is not a directory stays.

All of this holds if it can be asked whether there is a directory at each path, which is so unless a
path is too long.

## Main definitions

* `findProfiles` are the paths that several paths stand for, or the fault that this cannot be asked.
* `IsProfileIn` says that a path is that of a profile inside of a directory.
* `Expansion` says which paths a path stands for.
* `FindsExactly` says all of this about the paths that were found.

## Main results

* `mem_profilesIn_iff` and `pairwise_profilesIn` — what is found in a directory, in which order.
* `discover_of_alike` — what is in files does not matter.
* `discover_sublist` — a stricter configuration finds fewer profiles.
* `findProfiles_exact` — exactly the profiles are found, unless a path is too long.
-/

namespace SandboxProfile

variable {c c' : Config} {t : FileTree} {l : Location} {directory path : Text} {paths : List Text}

/-- The paths that several paths stand for, or the fault that this cannot be asked. -/
def findProfiles (c : Config) (t : FileTree) (paths : List Text) : Except Fault (List Text) :=
  if holdsTooLong t paths then .error .pathTooLong else .ok (discover c t paths)

/-! ### Directories -/

/-- The path is that of a profile inside of the directory: proper names lead to a file, its suffix is
that of a profile, and no pattern matches its name or its path. -/
def IsProfileIn (c : Config) (t : FileTree) (directory : Text) (l : Location) (path : Text) : Prop :=
  ∃ outer name file, (∀ n ∈ outer ++ [name], Path.IsName n) ∧
    t.get? (l ++ (outer ++ [name])) = some (.file file) ∧
    path = Path.below directory (outer ++ [name]) ∧ Path.suffix name ∈ c.extensions ∧
    ∀ pattern ∈ c.exclude, Glob.isMatch pattern name = false ∧ Glob.isMatch pattern path = false

/-- A file is a profile by its suffix and the patterns. -/
theorem isProfile_iff {name : Text} :
    isProfile c name path = true ↔ Path.suffix name ∈ c.extensions ∧
      ∀ pattern ∈ c.exclude, Glob.isMatch pattern name = false ∧
        Glob.isMatch pattern path = false := by
  simp [isProfile, isExcluded]

/-- The path that is picked for what is inside of a directory, if it is a profile. -/
def pickProfile (c : Config) (directory : Text) (e : List Text × Item) : Option Text :=
  match e.2, e.1.getLast? with
  | .file _, some name =>
    if isProfile c name (Path.below directory e.1) then some (Path.below directory e.1) else none
  | _, _ => none

theorem profilesIn_eq (c : Config) (t : FileTree) (directory : Text) (l : Location) :
    profilesIn c t directory l = (t.below l).filterMap (pickProfile c directory) := rfl

/-- What is picked is a file that is a profile. -/
theorem pickProfile_eq_some_iff {steps : List Text} {item : Item} :
    pickProfile c directory (steps, item) = some path ↔
      ∃ outer name file, steps = outer ++ [name] ∧ item = .file file ∧
        path = Path.below directory steps ∧ isProfile c name path = true := by
  constructor
  · intro h
    unfold pickProfile at h
    split at h
    · rename_i file name hitem hlast
      obtain ⟨outer, hsteps⟩ := List.getLast?_eq_some_iff.mp hlast
      split at h
      · rename_i hprofile
        obtain rfl := Option.some.inj h
        exact ⟨outer, name, file, hsteps, hitem, rfl, hprofile⟩
      · cases h
    · cases h
  · rintro ⟨outer, name, file, rfl, rfl, rfl, hprofile⟩
    unfold pickProfile
    rw [List.getLast?_concat]
    exact if_pos hprofile

/-- **What is found in a directory** are the profiles inside of it. -/
theorem mem_profilesIn_iff (hnamed : t.IsNamed) :
    path ∈ profilesIn c t directory l ↔ IsProfileIn c t directory l path := by
  rw [profilesIn_eq, List.mem_filterMap]
  constructor
  · rintro ⟨⟨steps, item⟩, hmem, hpick⟩
    obtain ⟨outer, name, file, rfl, rfl, hpath, hprofile⟩ := pickProfile_eq_some_iff.mp hpick
    obtain ⟨hinside, hget⟩ := FileTree.mem_below_iff.mp hmem
    obtain ⟨-, hnames⟩ := (FileTree.leadInside_iff hnamed hget).mp hinside
    exact ⟨outer, name, file, hnames, hget, hpath, isProfile_iff.mp hprofile⟩
  · rintro ⟨outer, name, file, hnames, hget, hpath, hprofile⟩
    have hne : outer ++ [name] ≠ [] := List.append_ne_nil_of_right_ne_nil _ (List.cons_ne_nil _ _)
    have hinside := (FileTree.leadInside_iff hnamed hget).mpr ⟨hne, hnames⟩
    exact ⟨_, FileTree.mem_below_iff.mpr ⟨hinside, hget⟩, pickProfile_eq_some_iff.mpr
      ⟨outer, name, file, rfl, rfl, hpath, isProfile_iff.mpr hprofile⟩⟩

/-- **Profiles are found in the order of the names in their paths.** -/
theorem pairwise_profilesIn (hnamed : t.IsNamed) (c : Config) (directory : Text) (l : Location) :
    (profilesIn c t directory l).Pairwise fun p q => Path.steps p < Path.steps q := by
  -- The path of what is picked has the names of the directory before those that lead on.
  have hsteps {e : List Text × Item} (he : e ∈ t.below l) {p : Text}
      (hp : pickProfile c directory e = some p) : Path.steps p = Path.steps directory ++ e.1 := by
    obtain ⟨steps, item⟩ := e
    obtain ⟨hinside, hget⟩ := FileTree.mem_below_iff.mp he
    obtain ⟨-, hnames⟩ := (FileTree.leadInside_iff hnamed hget).mp hinside
    obtain ⟨-, -, -, -, -, rfl, -⟩ := pickProfile_eq_some_iff.mp hp
    exact Path.steps_below hnames directory
  have hbelow := (t.pairwise_below l).imp_of_mem
    fun {e e'} he he' hlt => And.intro he (And.intro he' hlt)
  rw [profilesIn_eq]
  refine hbelow.filterMap _ fun e e' ⟨he, he', hlt⟩ p hp p' hp' => ?_
  rw [hsteps he hp, hsteps he' hp']
  exact List.append_left_lt hlt

/-- The same profiles are in a directory if only files have changed. -/
theorem profilesIn_of_alike {R : Location → File → File → Prop} {u : FileTree} (h : t.Alike R u)
    (c : Config) (directory : Text) (l : Location) :
    profilesIn c u directory l = profilesIn c t directory l := by
  refine h.filterMap_below l fun steps v w hvw => ?_
  cases hvw with
  | directory => rfl
  | file _ =>
      dsimp only
      cases steps.getLast? <;> rfl

/-- **The same profiles are found** if only files have changed. -/
theorem discover_of_alike {R : Location → File → File → Prop} {u : FileTree} (h : t.Alike R u)
    (c : Config) (paths : List Text) : discover c u paths = discover c t paths := by
  refine List.flatMap_congr fun path _ => ?_
  rw [expand, expand]
  simp only [h.directory?, profilesIn_of_alike h]

/-! ### Paths -/

/-- A path stands for itself: it is that of the standard input, or there is no directory at it. -/
def StandsForItself (t : FileTree) (path : Text) : Prop :=
  path = standardInput ∨ t.directory? (Path.normal path) = none

/-- The paths that a path stands for. -/
inductive Expansion (c : Config) (t : FileTree) (path : Text) : List Text → Prop where
  /-- What is no directory is kept as it is, whatever its suffix. -/
  | itself : StandsForItself t path → Expansion c t path [path]
  /-- A directory stands for the profiles inside of it, each of them once, in the order of the names
  in their paths. -/
  | directory {l : Location} {found : List Text} :
      path ≠ standardInput → t.directory? (Path.normal path) = some l →
      (∀ p, p ∈ found ↔ IsProfileIn c t (Path.normal path) l p) → found.Nodup →
      found.Pairwise (fun p q => Path.steps p < Path.steps q) → Expansion c t path found

/-- **A path is replaced by what it stands for.** -/
theorem expansion_expand (hnamed : t.IsNamed) (c : Config) (path : Text) :
    Expansion c t path (expand c t path) := by
  rw [expand]
  split
  · rename_i hinput
    exact .itself (.inl hinput)
  · rename_i hinput
    dsimp only
    split
    · rename_i l hl
      have hordered := pairwise_profilesIn hnamed c (Path.normal path) l
      refine .directory hinput hl (fun p => mem_profilesIn_iff hnamed) ?_ hordered
      refine hordered.imp fun {p q} hlt heq => ?_
      exact List.lt_irrefl _ (heq ▸ hlt)
    · rename_i hnone
      exact .itself (.inr hnone)

/-- What stands for itself is kept. -/
theorem expand_of_standsForItself (h : StandsForItself t path) : expand c t path = [path] := by
  rw [expand]
  split
  · rfl
  · rename_i hinput
    dsimp only
    rw [h.resolve_left hinput]

/-! ### Stricter configurations -/

/-- The configuration admits no other suffixes than another one, and it has all its patterns. -/
structure Config.Stricter (c' c : Config) : Prop where
  /-- Its suffixes are some of those of the other. -/
  extensions : ∀ e ∈ c'.extensions, e ∈ c.extensions
  /-- The patterns of the other are some of its patterns. -/
  exclude : ∀ p ∈ c.exclude, p ∈ c'.exclude

/-- A profile is one for the other configuration as well. -/
theorem Config.Stricter.pickProfile (h : c'.Stricter c) {e : List Text × Item}
    (hpick : pickProfile c' directory e = some path) :
    SandboxProfile.pickProfile c directory e = some path := by
  obtain ⟨steps, item⟩ := e
  obtain ⟨outer, name, file, hsteps, hitem, hpath, hprofile⟩ := pickProfile_eq_some_iff.mp hpick
  obtain ⟨hsuffix, hpatterns⟩ := isProfile_iff.mp hprofile
  refine pickProfile_eq_some_iff.mpr ⟨outer, name, file, hsteps, hitem, hpath, ?_⟩
  exact isProfile_iff.mpr ⟨h.extensions _ hsuffix, fun p hp => hpatterns p (h.exclude p hp)⟩

/-- Picking fewer members of a list leaves a part of what is picked. -/
theorem filterMap_sublist {α β : Type} {f g : α → Option β} (h : ∀ a b, g a = some b → f a = some b)
    (as : List α) : (as.filterMap g).Sublist (as.filterMap f) := by
  induction as with
  | nil => exact .slnil
  | cons a rest ih =>
      rw [List.filterMap_cons, List.filterMap_cons]
      cases hg : g a with
      | none =>
          cases f a with
          | none => exact ih
          | some b => exact .cons b ih
      | some b =>
          rw [h a b hg]
          exact .cons_cons b ih

/-- A path stands for fewer paths. -/
theorem Config.Stricter.expand_sublist (h : c'.Stricter c) (t : FileTree) (path : Text) :
    (expand c' t path).Sublist (expand c t path) := by
  rw [expand, expand]
  split
  · exact .refl _
  · dsimp only
    split
    · rw [profilesIn_eq, profilesIn_eq]
      exact filterMap_sublist (fun _ _ => h.pickProfile) _
    · exact .refl _

/-- **A stricter configuration finds fewer profiles**, in the same order. -/
theorem Config.Stricter.discover_sublist (h : c'.Stricter c) (t : FileTree) (paths : List Text) :
    (discover c' t paths).Sublist (discover c t paths) :=
  List.Sublist.flatMap_right paths fun path _ => h.expand_sublist t path

/-! ### All paths -/

/-- Exactly the profiles that several paths stand for are found. -/
structure FindsExactly (c : Config) (t : FileTree) (paths found : List Text) : Prop where
  /-- They are those that each of the paths stands for, path by path. -/
  expands : ∃ founds, List.Forall₂ (Expansion c t) paths founds ∧ found = founds.flatten
  /-- A stricter configuration finds fewer, and all paths that stand for themselves. -/
  fewer : ∀ c' : Config, c'.Stricter c → ∃ fewer, findProfiles c' t paths = .ok fewer ∧
    fewer.Sublist found ∧ ∀ path ∈ paths, StandsForItself t path → path ∈ fewer
  /-- A configuration that is less strict finds more. -/
  more : ∀ c' : Config, c.Stricter c' → ∃ more, findProfiles c' t paths = .ok more ∧
    found.Sublist more
  /-- What is in files does not matter. -/
  contents : ∀ u : FileTree, t.Alike (fun _ _ _ => True) u → findProfiles c u paths = .ok found

/-- What is found if no path is too long. -/
theorem findProfiles_eq_ok_iff {found : List Text} :
    findProfiles c t paths = .ok found ↔
      holdsTooLong t paths = false ∧ discover c t paths = found := by
  rw [findProfiles]
  cases holdsTooLong t paths <;> simp

/-- **Exactly the profiles are found** that the paths stand for, unless one of the paths is too
long. -/
theorem findProfiles_exact (hnamed : t.IsNamed) (c : Config) (paths : List Text) :
    (∃ found, findProfiles c t paths = .ok found ∧ FindsExactly c t paths found) ↔
      holdsTooLong t paths = false := by
  constructor
  · rintro ⟨found, hfound, -⟩
    exact (findProfiles_eq_ok_iff.mp hfound).1
  · intro hshort
    refine ⟨_, findProfiles_eq_ok_iff.mpr ⟨hshort, rfl⟩, ?_, ?_, ?_, ?_⟩
    · refine ⟨paths.map (expand c t), List.forall₂_map_right_iff.mpr ?_, List.flatMap_def⟩
      exact List.forall₂_same.mpr fun path _ => expansion_expand hnamed c path
    · intro c' hstricter
      refine ⟨_, findProfiles_eq_ok_iff.mpr ⟨hshort, rfl⟩, hstricter.discover_sublist t paths, ?_⟩
      intro path hpath hself
      refine List.mem_flatMap.mpr ⟨path, hpath, ?_⟩
      rw [expand_of_standsForItself hself]
      exact List.mem_cons_self
    · intro c' hstricter
      exact ⟨_, findProfiles_eq_ok_iff.mpr ⟨hshort, rfl⟩, hstricter.discover_sublist t paths⟩
    · intro u hu
      refine findProfiles_eq_ok_iff.mpr ⟨?_, discover_of_alike hu c paths⟩
      rw [← hshort, holdsTooLong, holdsTooLong]
      simp only [hu.isTooLong]

/-- A directory with a profile, another directory whose name has the suffix of one and which holds a
profile, a hidden file, and a file with another suffix. -/
def nestedProfiles : FileTree :=
  let file : Item := .file ⟨[], .full⟩
  (((((FileTree.empty.put ["etc".toList] .directory).put
    ["etc".toList, "b.profile".toList] file).put
    ["etc".toList, "a.profile".toList] .directory).put
    ["etc".toList, "a.profile".toList, "x.inc".toList] file).put
    ["etc".toList, ".profile".toList] file).put
    ["etc".toList, "note.txt".toList] file

/-- The two profiles are found in the directory, and the other file where it is asked for. -/
theorem findProfiles_exact_nestedProfiles :
    nestedProfiles.IsNamed ∧
      ∃ found, findProfiles {} nestedProfiles ["etc/".toList, "etc/note.txt".toList] = .ok found ∧
        FindsExactly {} nestedProfiles ["etc/".toList, "etc/note.txt".toList] found ∧
        found = ["etc/a.profile/x.inc".toList, "etc/b.profile".toList, "etc/note.txt".toList] := by
  have hnamed : nestedProfiles.IsNamed := by decide +kernel
  have hshort : holdsTooLong nestedProfiles ["etc/".toList, "etc/note.txt".toList] = false := by
    decide +kernel
  obtain ⟨found, hfound, hexact⟩ := (findProfiles_exact hnamed {} _).mpr hshort
  refine ⟨hnamed, found, hfound, hexact, ?_⟩
  rw [← (findProfiles_eq_ok_iff.mp hfound).2]
  decide +kernel

/-- A path that is no directory does not stand for itself if its name is too long. -/
theorem not_findsExactly_overlong :
    FileTree.empty.IsNamed ∧ StandsForItself .empty (List.replicate 256 'a') ∧
      ¬∃ found, findProfiles {} .empty [List.replicate 256 'a'] = .ok found := by
  refine ⟨nofun, .inr (by decide +kernel), ?_⟩
  rintro ⟨found, hfound⟩
  have hlong : holdsTooLong .empty [List.replicate 256 'a'] = true := by decide +kernel
  rw [(findProfiles_eq_ok_iff.mp hfound).1] at hlong
  cases hlong

end SandboxProfile
