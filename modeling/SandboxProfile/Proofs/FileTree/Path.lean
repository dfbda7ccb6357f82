import Mathlib.Data.List.Basic
import SandboxProfile.Proofs.Except
import SandboxProfile.Proofs.FileTree.Access

/-!
# The normal spelling of a path

The normal spelling leaves out empty names and steps to the place itself. Where a path leads,
its normal spelling leads as well.

## Main definitions

* `Path.steps` are the names in a path, without steps to the place itself.
* `Path.IsName` says what the names in a directory look like.
* `Path.CanBeOpened` says which paths a system can open.

## Main results

* `Path.names_joined` — names that are joined are the names of the path.
* `Path.names_below` — the names in the path of something inside of a directory.
* `Path.size_normal_le` — the normal spelling is not longer than the path.
* `FileTree.locate_normal` — the normal spelling leads to the same place.
* `FileTree.directory?_normal_of_leads` — the normal spelling of a path to a file leads to no
  directory.
-/

namespace SandboxProfile

/-! ### Cutting and joining -/

namespace Text

/-- A text without the separator is one piece. -/
theorem splitOn_of_not_mem {c : Char} {s : Text} (h : c ∉ s) : splitOn c s = [s] := by
  induction s with
  | nil => rfl
  | cons d rest ih =>
      have hd : d ≠ c := fun he => h (he ▸ List.mem_cons_self)
      rw [splitOn, if_neg hd, ih fun hc => h (List.mem_cons_of_mem _ hc)]

theorem splitOn_ne_nil (c : Char) (s : Text) : splitOn c s ≠ [] := by
  cases s with
  | nil => exact List.cons_ne_nil _ _
  | cons d rest =>
      rw [splitOn]
      split
      · exact List.cons_ne_nil _ _
      · split <;> exact List.cons_ne_nil _ _

/-- The pieces before a separator come before those after it. -/
theorem splitOn_append (c : Char) (s rest : Text) :
    splitOn c (s ++ c :: rest) = splitOn c s ++ splitOn c rest := by
  induction s with
  | nil =>
      rw [List.nil_append]
      exact if_pos rfl
  | cons d s ih =>
      rw [List.cons_append, splitOn, splitOn, ih]
      split
      · rw [List.cons_append]
      · cases hs : splitOn c s with
        | nil => exact absurd hs (splitOn_ne_nil c s)
        | cons piece pieces => rfl

theorem splitOn_append_cons {c : Char} {s : Text} (h : c ∉ s) (rest : Text) :
    splitOn c (s ++ c :: rest) = s :: splitOn c rest := by
  rw [splitOn_append, splitOn_of_not_mem h, List.singleton_append]

/-- No piece holds the separator. -/
theorem not_mem_of_mem_splitOn {c : Char} {s piece : Text} (h : piece ∈ splitOn c s) :
    c ∉ piece := by
  induction s generalizing piece with
  | nil =>
      rw [List.mem_singleton.mp h]
      exact List.not_mem_nil
  | cons d rest ih =>
      rw [splitOn] at h
      split at h
      · rcases List.mem_cons.mp h with rfl | h
        · exact List.not_mem_nil
        · exact ih h
      · rename_i hd
        split at h
        · rw [List.mem_singleton.mp h, List.mem_singleton]
          exact fun he => hd he.symm
        · rename_i first pieces hsplit
          rw [hsplit] at ih
          rcases List.mem_cons.mp h with rfl | h
          · rw [List.mem_cons]
            rintro (he | hc)
            · exact hd he.symm
            · exact ih List.mem_cons_self hc
          · exact ih (List.mem_cons_of_mem _ h)

end Text

namespace Path

/-- The names in a path are not empty and hold no slash. -/
theorem name_of_mem_names {path name : Text} (h : name ∈ names path) :
    name ≠ [] ∧ '/' ∉ name := by
  obtain ⟨hname, hne⟩ := List.mem_filter.mp h
  exact ⟨by simpa using hne, Text.not_mem_of_mem_splitOn hname⟩

theorem names_cons_slash (path : Text) : names ('/' :: path) = names path := by
  rw [names, Text.splitOn, if_pos rfl, List.filter_cons_of_neg (by simp)]
  rfl

/-- **Names that are joined are the names of the path.** -/
theorem names_joined {steps : List Text} (h : ∀ name ∈ steps, name ≠ [] ∧ '/' ∉ name) :
    names (Text.joined ['/'] steps) = steps := by
  induction steps with
  | nil => rfl
  | cons name rest ih =>
      obtain ⟨hne, hslash⟩ := h name List.mem_cons_self
      have hrest := ih fun n hn => h n (List.mem_cons_of_mem _ hn)
      cases rest with
      | nil =>
          rw [Text.joined, names, Text.splitOn_of_not_mem hslash]
          simp [hne]
      | cons second rest =>
          have hjoin : Text.joined ['/'] (name :: second :: rest) =
              name ++ '/' :: Text.joined ['/'] (second :: rest) := List.append_assoc _ _ _
          rw [hjoin, names, Text.splitOn_append_cons hslash,
            List.filter_cons_of_pos (by simpa using hne)]
          exact congrArg (name :: ·) hrest

/-- The names of the normal spelling: those of the path that are no steps to the place
itself. -/
def steps (path : Text) : List Text :=
  (names path).filter (· ≠ here)

/-- The names of the normal spelling are not empty and hold no slash. -/
theorem name_of_mem_steps {path name : Text} (h : name ∈ steps path) :
    name ≠ [] ∧ '/' ∉ name :=
  name_of_mem_names (List.mem_filter.mp h).1

/-- Names on both sides of a slash. -/
theorem names_append_slash (s rest : Text) : names (s ++ '/' :: rest) = names s ++ names rest := by
  rw [names, Text.splitOn_append, List.filter_append, names, names]

/-- Something in a directory can have the name. -/
def IsName (name : Text) : Prop :=
  name ≠ [] ∧ '/' ∉ name ∧ name ≠ here ∧ name ≠ parent

instance (name : Text) : Decidable (IsName name) :=
  inferInstanceAs (Decidable (name ≠ [] ∧ '/' ∉ name ∧ name ≠ here ∧ name ≠ parent))

/-- **The path of something inside of a directory** has the names of the directory and those that
lead on from there. The path of the working directory is left out. -/
theorem names_below {inner : List Text} (h : ∀ name ∈ inner, IsName name) (hne : inner ≠ [])
    (directory : Text) :
    names (below directory inner) =
      (if directory = here then [] else names directory) ++ inner := by
  have hjoined : names (Text.joined ['/'] inner) = inner :=
    names_joined fun name hname => ⟨(h name hname).1, (h name hname).2.1⟩
  unfold below
  split
  · exact absurd rfl hne
  · split
    · exact hjoined
    · split
      · rename_i hslash
        obtain ⟨outer, rfl⟩ := List.getLast?_eq_some_iff.mp (of_decide_eq_true hslash)
        have hnone : names (outer ++ ['/']) = names outer :=
          (names_append_slash outer []).trans (List.append_nil _)
        rw [List.append_assoc, List.singleton_append, names_append_slash, hnone, hjoined]
      · rw [names_append_slash, hjoined]

/-- The steps of the path of something inside of a directory are those of the directory and the
names that lead on from there. -/
theorem steps_below {inner : List Text} (h : ∀ name ∈ inner, IsName name) (directory : Text) :
    steps (below directory inner) = steps directory ++ inner := by
  have hinner : inner.filter (· ≠ here) = inner :=
    List.filter_eq_self.mpr fun name hname => decide_eq_true (h name hname).2.2.1
  by_cases hne : inner = []
  · subst hne
    exact (List.append_nil _).symm
  · rw [steps, names_below h hne, List.filter_append, hinner, steps]
    split
    · rename_i hhere
      rw [hhere]
      rfl
    · rfl

/-- The normal spelling begins with slashes exactly if the path does. -/
theorem root_cases (path : Text) :
    (root path = [] ∧ isAbsolute path = false) ∨
      ((root path = ['/'] ∨ root path = ['/', '/']) ∧ isAbsolute path = true) := by
  cases path with
  | nil => exact .inl ⟨rfl, rfl⟩
  | cons c rest =>
      by_cases hc : c = '/'
      · subst hc
        refine .inr ⟨?_, rfl⟩
        rw [root, List.takeWhile_cons_of_pos (by decide)]
        split
        · rename_i h
          cases h
        · exact .inr rfl
        · exact .inl rfl
      · refine .inl ⟨?_, by simp [isAbsolute, hc]⟩
        rw [root, List.takeWhile_cons_of_neg (by simpa using hc)]

theorem names_root_append (path s : Text) : names (root path ++ s) = names s := by
  rcases root_cases path with ⟨hroot, -⟩ | ⟨hroot | hroot, -⟩
  · rw [hroot, List.nil_append]
  · rw [hroot, List.singleton_append, names_cons_slash]
  · rw [hroot, List.cons_append, List.singleton_append, names_cons_slash, names_cons_slash]

/-- Joined names do not begin with a slash. -/
theorem isAbsolute_joined {inner : List Text} (h : ∀ name ∈ inner, name ≠ [] ∧ '/' ∉ name) :
    isAbsolute (Text.joined ['/'] inner) = false := by
  cases inner with
  | nil => rfl
  | cons name rest =>
      obtain ⟨hne, hslash⟩ := h name List.mem_cons_self
      obtain ⟨c, name, rfl⟩ := List.exists_cons_of_ne_nil hne
      have hc : c ≠ '/' := fun he => hslash (he ▸ List.mem_cons_self)
      cases rest <;> simp [Text.joined, isAbsolute, hc]

/-- The joined names begin with a slash only if there is one before them. -/
theorem isAbsolute_root_append (path : Text) :
    isAbsolute (root path ++ Text.joined ['/'] (steps path)) = isAbsolute path := by
  rcases root_cases path with ⟨hroot, habs⟩ | ⟨hroot | hroot, habs⟩
  · rw [hroot, List.nil_append, habs]
    exact isAbsolute_joined fun name hname => name_of_mem_steps hname
  · rw [hroot, habs]
    rfl
  · rw [hroot, habs]
    rfl

/-- The path of something inside of a directory begins where that of the directory does. -/
theorem isAbsolute_below {inner : List Text} (h : ∀ name ∈ inner, IsName name) {directory : Text}
    (hne : directory ≠ []) : isAbsolute (below directory inner) = isAbsolute directory := by
  have hjoined : isAbsolute (Text.joined ['/'] inner) = false :=
    isAbsolute_joined fun name hname => ⟨(h name hname).1, (h name hname).2.1⟩
  obtain ⟨c, rest, rfl⟩ := List.exists_cons_of_ne_nil hne
  unfold below
  split
  · rfl
  · split
    · rename_i hhere
      rw [hjoined, hhere]
      rfl
    · split <;> rfl

/-- Joined names end as the last of them does. -/
theorem getLast?_joined {name : Text} (hne : name ≠ []) (outer : List Text) :
    (Text.joined ['/'] (outer ++ [name])).getLast? = name.getLast? := by
  induction outer with
  | nil => rfl
  | cons first rest ih =>
      have hjoin : Text.joined ['/'] (first :: (rest ++ [name])) =
          first ++ ['/'] ++ Text.joined ['/'] (rest ++ [name]) := by
        cases rest <;> rfl
      have hlast : Text.joined ['/'] (rest ++ [name]) ≠ [] := by
        intro hnil
        rw [hnil] at ih
        exact hne (List.getLast?_eq_none_iff.mp ih.symm)
      rw [List.cons_append, hjoin, List.getLast?_append_of_ne_nil _ hlast, ih]

/-- The path of something inside of a directory demands no directory. -/
theorem endsInSlash_below {outer : List Text} {name : Text} (h : IsName name) (directory : Text) :
    endsInSlash (below directory (outer ++ [name])) = false := by
  have hlast : (Text.joined ['/'] (outer ++ [name])).getLast? = name.getLast? :=
    getLast?_joined h.1 outer
  have hne : Text.joined ['/'] (outer ++ [name]) ≠ [] := by
    intro hnil
    rw [hnil] at hlast
    exact h.1 (List.getLast?_eq_none_iff.mp hlast.symm)
  have hslash : name.getLast? ≠ some '/' := fun hsome => h.2.1 (List.mem_of_getLast? hsome)
  have hend (before : Text) :
      endsInSlash (before ++ Text.joined ['/'] (outer ++ [name])) = false := by
    rw [endsInSlash, List.getLast?_append_of_ne_nil _ hne, hlast]
    exact decide_eq_false hslash
  unfold below
  split
  · rename_i hnil
    exact absurd hnil (List.append_ne_nil_of_right_ne_nil _ (List.cons_ne_nil _ _))
  · split
    · exact hend []
    · split
      · exact hend directory
      · have hcons : directory ++ '/' :: Text.joined ['/'] (outer ++ [name]) =
            directory ++ ['/'] ++ Text.joined ['/'] (outer ++ [name]) :=
          (List.append_assoc directory ['/'] _).symm
        rw [hcons]
        exact hend _

/-! ### Length -/

theorem size_append (s t : Text) : Utf8.size (s ++ t) = Utf8.size s + Utf8.size t := by
  rw [Utf8.size, Utf8.encode, List.flatMap_append, List.length_append]
  rfl

/-- Every character has a byte. -/
theorem length_le_size (s : Text) : s.length ≤ Utf8.size s := by
  induction s with
  | nil => exact Nat.zero_le _
  | cons c rest ih =>
      have hc : 1 ≤ Utf8.size [c] := by
        rw [Utf8.size, Utf8.encode, List.flatMap_singleton, Utf8.encodeChar]
        grind
      have hsize := size_append [c] rest
      rw [List.singleton_append] at hsize
      rw [List.length_cons]
      omega

/-- The bytes of pieces, and one more for each of them. -/
def sizeOfPieces : List Text → Nat
  | [] => 0
  | piece :: rest => Utf8.size piece + 1 + sizeOfPieces rest

/-- Fewer pieces have fewer bytes. -/
theorem sizeOfPieces_le_of_sublist {pieces more : List Text} (h : pieces.Sublist more) :
    sizeOfPieces pieces ≤ sizeOfPieces more := by
  induction h with
  | slnil => exact Nat.le_refl _
  | cons piece _ ih => exact Nat.le_add_left_of_le ih
  | cons_cons piece _ ih => exact Nat.add_le_add_left ih _

/-- Cutting a text takes one byte for each cut. -/
theorem sizeOfPieces_splitOn (s : Text) :
    sizeOfPieces (Text.splitOn '/' s) = Utf8.size s + 1 := by
  induction s with
  | nil => rfl
  | cons c rest ih =>
      have hsize : Utf8.size (c :: rest) = Utf8.size [c] + Utf8.size rest := size_append [c] rest
      rw [Text.splitOn]
      split
      · rename_i hc
        subst hc
        have hslash : Utf8.size ['/'] = 1 := rfl
        rw [sizeOfPieces]
        have hnil : Utf8.size [] = 0 := rfl
        omega
      · split
        · rename_i hsplit
          rw [hsplit] at ih
          cases ih
        · rename_i piece pieces hsplit
          have hpiece : Utf8.size (c :: piece) = Utf8.size [c] + Utf8.size piece :=
            size_append [c] piece
          rw [hsplit, sizeOfPieces] at ih
          rw [sizeOfPieces]
          omega

/-- Joining pieces adds one byte less than there are pieces. -/
theorem size_joined_le (pieces : List Text) :
    Utf8.size (Text.joined ['/'] pieces) ≤ sizeOfPieces pieces - 1 := by
  induction pieces with
  | nil => exact Nat.zero_le _
  | cons piece rest ih =>
      rw [sizeOfPieces]
      cases rest with
      | nil =>
          rw [Text.joined]
          omega
      | cons second rest =>
          have hslash : Utf8.size ['/'] = 1 := rfl
          rw [sizeOfPieces] at ih ⊢
          have hjoin : Text.joined ['/'] (piece :: second :: rest) =
              piece ++ ['/'] ++ Text.joined ['/'] (second :: rest) := rfl
          rw [hjoin, size_append, size_append, hslash]
          omega

/-- The joined names have no more bytes than the text that they are from. -/
theorem size_joined_steps_le (s : Text) :
    Utf8.size (Text.joined ['/'] (steps s)) ≤ Utf8.size s := by
  have hsub : (steps s).Sublist (Text.splitOn '/' s) :=
    List.filter_sublist.trans List.filter_sublist
  have hle : sizeOfPieces (steps s) ≤ sizeOfPieces (Text.splitOn '/' s) :=
    sizeOfPieces_le_of_sublist hsub
  rw [sizeOfPieces_splitOn] at hle
  have hjoin := size_joined_le (steps s)
  omega

/-- The slashes that the normal spelling begins with are slashes that the path begins with. -/
theorem exists_root_append (path : Text) : ∃ rest, path = root path ++ rest := by
  have hcut : path.takeWhile (· = '/') ++ path.dropWhile (· = '/') = path :=
    List.takeWhile_append_dropWhile
  rw [root]
  split
  · exact ⟨path, rfl⟩
  · rename_i hslashes
    exact ⟨_, by rw [← hslashes, hcut]⟩
  · rename_i hne _
    cases path with
    | nil => exact absurd rfl hne
    | cons c rest =>
        have hc : c = '/' := by
          by_contra hc
          exact hne (List.takeWhile_cons_of_neg (by simpa using hc))
        exact ⟨rest, by rw [hc]; rfl⟩

/-- **The normal spelling is not longer than the path.** -/
theorem size_normal_le {path : Text} (h : path ≠ []) :
    Utf8.size (normal path) ≤ Utf8.size path := by
  obtain ⟨rest, hrest⟩ := exists_root_append path
  have hsteps : steps path = steps rest := by
    have hnames : names path = names rest := by
      conv_lhs => rw [hrest]
      exact names_root_append path rest
    rw [steps, hnames, steps]
  have hpath : Utf8.size path = Utf8.size (root path) + Utf8.size rest := by
    conv_lhs => rw [hrest]
    exact size_append _ _
  by_cases hnone : root path = [] ∧ steps path = []
  · have hhere : normal path = here := if_pos hnone
    have hone : Utf8.size here = 1 := rfl
    have hlength := length_le_size path
    have hpos := List.length_pos_iff.mpr h
    rw [hhere, hone]
    omega
  · have hnormal : normal path = root path ++ Text.joined ['/'] (steps path) := if_neg hnone
    have hjoin := size_joined_steps_le rest
    rw [hnormal, size_append, hsteps]
    omega

/-- The path can be used to open something: it holds no NUL, and neither it nor a name in it has too
many bytes. -/
structure CanBeOpened (path : Text) : Prop where
  /-- The path does not have too many bytes. -/
  short : Utf8.size path ≤ limit
  /-- No name in it has. -/
  names_short : ∀ name ∈ names path, Utf8.size name ≤ nameLimit
  /-- There is no NUL. -/
  no_nul : path.contains '\x00' = false

instance (path : Text) : Decidable (CanBeOpened path) :=
  decidable_of_iff (Utf8.size path ≤ limit ∧ (∀ name ∈ names path, Utf8.size name ≤ nameLimit) ∧
      path.contains '\x00' = false)
    ⟨fun h => ⟨h.1, h.2.1, h.2.2⟩, fun h => ⟨h.short, h.names_short, h.no_nul⟩⟩

end Path

namespace FileTree

variable {t : FileTree} {path : Text} {l : Location}

/-- Steps to the place itself can be left out. -/
theorem foldlM_step_filter {names : List Text} {k : Location}
    (h : names.foldlM t.step k = .ok l) :
    (names.filter (· ≠ Path.here)).foldlM t.step k = .ok l := by
  induction names generalizing k with
  | nil => exact h
  | cons name rest ih =>
      rw [List.foldlM_cons] at h
      obtain ⟨m, hm, h⟩ := bind_eq_ok.mp h
      by_cases hname : name = Path.here
      · have hmk : m = k := by
          subst hname
          unfold FileTree.step at hm
          split at hm
          · cases hm
          · cases hm
          · exact (Except.ok.inj hm).symm
        rw [List.filter_cons_of_neg (by simpa using hname), ← hmk]
        exact ih h
      · rw [List.filter_cons_of_pos (by simpa using hname), List.foldlM_cons]
        exact bind_eq_ok.mpr ⟨m, hm, ih h⟩

/-- A path that leads somewhere is neither empty nor too long, and its names lead there. -/
theorem locate_eq_ok (h : t.locate path = .ok l) :
    path ≠ [] ∧ Utf8.size path ≤ Path.limit ∧
      (Path.names path).foldlM t.step (startOf path) = .ok l := by
  unfold FileTree.locate at h
  split at h
  · cases h
  · rename_i hne
    split at h
    · cases h
    · rename_i hlength
      exact ⟨hne, Nat.le_of_not_lt hlength, h⟩

/-- **The normal spelling leads to the same place.** -/
theorem locate_normal (h : t.locate path = .ok l) : t.locate (Path.normal path) = .ok l := by
  obtain ⟨hpath, hlength, hnamed⟩ := locate_eq_ok h
  have hfold : (Path.steps path).foldlM t.step (startOf path) = .ok l :=
    foldlM_step_filter hnamed
  by_cases hnone : Path.root path = [] ∧ Path.steps path = []
  · have hhere : Path.normal path = Path.here := if_pos hnone
    have hstart : startOf path = [] := by
      rcases Path.root_cases path with ⟨-, habs⟩ | ⟨hroot | hroot, -⟩
      · rw [startOf, habs]
        rfl
      · rw [hnone.1] at hroot
        cases hroot
      · rw [hnone.1] at hroot
        cases hroot
    rw [hnone.2, hstart] at hfold
    obtain rfl : [] = l := Except.ok.inj hfold
    rw [hhere]
    rfl
  · have hnormal : Path.normal path =
        Path.root path ++ Text.joined ['/'] (Path.steps path) := if_neg hnone
    have hnames : Path.names (Path.normal path) = Path.steps path := by
      rw [hnormal, Path.names_root_append]
      exact Path.names_joined fun name hname => Path.name_of_mem_steps hname
    have hstart : startOf (Path.normal path) = startOf path := by
      rw [startOf, startOf, hnormal, Path.isAbsolute_root_append]
    have hne : Path.normal path ≠ [] := by
      intro hnil
      rw [hnil] at hnames hnormal
      exact hnone ⟨(List.append_eq_nil_iff.mp hnormal.symm).1, hnames.symm⟩
    have hshort : ¬Path.limit < Utf8.size (Path.normal path) :=
      Nat.not_lt_of_le (Nat.le_trans (Path.size_normal_le hpath) hlength)
    rw [FileTree.locate, if_neg hne, if_neg hshort, hnames, hstart, hfold]

/-- The normal spelling of a path to a file leads to no directory. -/
theorem directory?_normal_of_leads {f : File} (h : t.Leads path l f) :
    t.directory? (Path.normal path) = none := by
  rw [FileTree.directory?, FileTree.find, locate_normal h.locate]
  simp only [bind, Except.bind, h.get?, pure, Except.pure]
  cases Path.endsInSlash (Path.normal path) <;> rfl

/-- A path that leads somewhere has a normal spelling that is not too long. -/
theorem isTooLong_normal_of_locate (h : t.locate path = .ok l) :
    t.isTooLong (Path.normal path) = false := by
  rw [FileTree.isTooLong, locate_normal h]

end FileTree

end SandboxProfile
