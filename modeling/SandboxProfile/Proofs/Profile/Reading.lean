import SandboxProfile.Profile.Reading
import SandboxProfile.Proofs.Except
import SandboxProfile.Proofs.FileTree.Path

/-!
# Profiles that can be read

A profile can be read if its path leads to a file that may be read and whose bytes are a text;
the standard input if its bytes are. Profiles are read one after another, so what several of
them fail with is the failure of the first one that cannot be read. The standard input takes
part in this like a file, although it is empty when it is read again: where it could not be
read, nothing after it is.

## Main definitions

* `readAt` reads the profile at a path, which may be that of the standard input.
* `CanRead` says what it takes to read it.

## Main results

* `readAt_ok_iff` — when a profile can be read.
* `readAt_eq_fault_iff` — only a path with a NUL is a fault.
* `readPaths_eq_error_iff` — several profiles fail with the first failure.
* `readProfile_of_readPaths` — the profiles of files that were read.
-/

namespace SandboxProfile

variable {t : FileTree} {input : List UInt8} {path : Text}

/-! ### One profile -/

/-- A profile that is read has the text that the bytes of its file stand for. -/
theorem readProfile_eq_ok {text : Text} :
    readProfile t path = .ok ⟨path, text⟩ ↔
      ∃ bytes, t.read path = .ok bytes ∧ Utf8.decode bytes = .ok text := by
  constructor
  · intro h
    unfold readProfile at h
    split at h
    · cases h
    · cases h
    · cases h
    · rename_i bytes hread
      split at h
      · rename_i text' hdecode
        obtain rfl : text' = text := congrArg Profile.text (Except.ok.inj h)
        exact ⟨bytes, hread, hdecode⟩
      · cases h
  · rintro ⟨bytes, hread, hdecode⟩
    rw [readProfile, hread]
    simp only [hdecode]

/-- A profile has the path that it was read from. -/
theorem path_of_readProfile {p : Profile} (h : readProfile t path = .ok p) : p.path = path := by
  unfold readProfile at h
  split at h
  · cases h
  · cases h
  · cases h
  · split at h
    · rw [← Except.ok.inj h]
    · cases h

/-- Only a path that holds a NUL is a fault. -/
theorem readProfile_eq_fault_iff {f : Fault} :
    readProfile t path = .error (.fault f) ↔ path.contains '\x00' = true ∧ f = .nulInPath := by
  rw [← FileTree.read_eq_fault_iff (t := t), readProfile]
  cases t.read path with
  | error e =>
      cases e with
      | fault g => simp
      | reported e => cases e <;> simp
  | ok bytes => cases hdecode : Utf8.decode bytes <;> simp [hdecode]

/-- The profile at a path, or on the standard input. -/
def readAt (t : FileTree) (input : List UInt8) (path : Text) :
    Except (Failure ProfileError) Profile :=
  if path = standardInput then readInput input else readProfile t path

/-- The bytes of the standard input, or of a file to which the path leads and which may be read,
are a text. -/
def CanRead (t : FileTree) (input : List UInt8) (path : Text) : Prop :=
  if path = standardInput then ∃ text, Utf8.decode input = .ok text
  else ∃ l f text, t.Leads path l f ∧ f.access ≠ .none ∧ Utf8.decode f.content = .ok text

/-- **When a profile can be read.** -/
theorem readAt_ok_iff : (∃ p, readAt t input path = .ok p) ↔ CanRead t input path := by
  rw [readAt, CanRead]
  by_cases hinput : path = standardInput
  · rw [if_pos hinput, if_pos hinput, readInput]
    cases Utf8.decode input with
    | ok text => exact ⟨fun _ => ⟨text, rfl⟩, fun _ => ⟨_, rfl⟩⟩
    | error f =>
        constructor
        · rintro ⟨p, h⟩
          cases h
        · rintro ⟨text, h⟩
          cases h
  · rw [if_neg hinput, if_neg hinput]
    constructor
    · rintro ⟨⟨path', text⟩, h⟩
      obtain rfl : path' = path := path_of_readProfile h
      obtain ⟨bytes, hread, hdecode⟩ := readProfile_eq_ok.mp h
      obtain ⟨l, f, hleads, haccess, rfl⟩ := FileTree.read_eq_ok hread
      exact ⟨l, f, text, hleads, haccess, hdecode⟩
    · rintro ⟨l, f, text, hleads, haccess, hdecode⟩
      exact ⟨_, readProfile_eq_ok.mpr ⟨_, hleads.read haccess, hdecode⟩⟩

/-- Only the path of a file that holds a NUL is a fault. -/
theorem readAt_eq_fault_iff {f : Fault} :
    readAt t input path = .error (.fault f) ↔
      path.contains '\x00' = true ∧ f = .nulInPath := by
  rw [readAt]
  split
  · rename_i hinput
    subst hinput
    rw [readInput]
    refine ⟨fun h => ?_, fun h => absurd h.1 (by decide)⟩
    cases hdecode : Utf8.decode input <;> simp [hdecode] at h
  · exact readProfile_eq_fault_iff

/-! ### Several profiles -/

theorem readInput_nil : readInput [] = .ok ⟨standardInput, []⟩ := rfl

/-- Where the standard input can be read, the same failures are met when it is empty. -/
theorem readAt_nil_eq_error_iff (hinput : ∃ p, readInput input = .ok p) (path : Text)
    (e : Failure ProfileError) : readAt t [] path = .error e ↔ readAt t input path = .error e := by
  obtain ⟨p, hp⟩ := hinput
  rw [readAt, readAt]
  split
  · rw [readInput_nil, hp]
    exact ⟨fun h => (nomatch h), fun h => (nomatch h)⟩
  · rfl

/-- **Several profiles fail with the first failure.** -/
theorem readPaths_eq_error_iff {paths : List Text} {e : Failure ProfileError} :
    readPaths t input paths = .error e ↔ ∃ path, FirstError (readAt t input) paths path e := by
  induction paths generalizing input with
  | nil => exact ⟨fun h => (nomatch h), fun h => absurd h not_exists_firstError_nil⟩
  | cons path rest ih =>
      rw [readPaths, exists_firstError_cons]
      by_cases hinput : path = standardInput
      · have hat : readAt t input path = readInput input := if_pos hinput
        rw [if_pos hinput, combine_eq_error, hat, ih]
        refine or_congr_right (and_congr_right fun hread => exists_congr fun q => ?_)
        have hsame := readAt_nil_eq_error_iff (t := t) hread
        exact ⟨FirstError.congr fun a e => (hsame a e).symm, FirstError.congr hsame⟩
      · have hat : readAt t input path = readProfile t path := if_neg hinput
        rw [if_neg hinput, combine_eq_error, hat, ih]

/-- The profiles of files that were read are those at their paths. -/
theorem readProfile_of_readPaths {paths : List Text} {ps : List Profile}
    (h : readPaths t input paths = .ok ps) :
    ∀ p ∈ ps, p.path ≠ standardInput → readProfile t p.path = .ok p := by
  induction paths generalizing input ps with
  | nil =>
      obtain rfl := Except.ok.inj h
      exact List.forall_mem_nil _
  | cons path rest ih =>
      rw [readPaths] at h
      split at h
      · obtain ⟨p, hp, h⟩ := bind_eq_ok.mp h
        obtain ⟨others, hothers, h⟩ := bind_eq_ok.mp h
        obtain rfl := pure_eq_ok.mp h
        refine List.forall_mem_cons.mpr ⟨fun hpath => ?_, ih hothers⟩
        refine absurd ?_ hpath
        rw [readInput] at hp
        split at hp
        · rw [← Except.ok.inj hp]
        · cases hp
      · obtain ⟨p, hp, h⟩ := bind_eq_ok.mp h
        obtain ⟨others, hothers, h⟩ := bind_eq_ok.mp h
        obtain rfl := pure_eq_ok.mp h
        refine List.forall_mem_cons.mpr ⟨fun _ => ?_, ih hothers⟩
        rw [path_of_readProfile hp]
        exact hp

/-- Profiles that were read are those at the paths that were found. -/
theorem readPaths_of_readProfiles {config : Config} {paths : List Text} {ps : List Profile}
    (h : readProfiles config t input paths = .ok ps) :
    readPaths t input (discover config t paths) = .ok ps := by
  rw [readProfiles] at h
  split at h
  · cases h
  · exact h

/-! ### Paths that are too long -/

/-- A path whose profiles can be read is not too long. -/
theorem holdsTooLong_of_readable {config : Config} {paths : List Text}
    (h : ∀ path ∈ discover config t paths, ∃ text, readProfile t path = .ok ⟨path, text⟩) :
    holdsTooLong t paths = false := by
  rw [holdsTooLong, List.any_eq_false]
  intro path hpath hlong
  obtain ⟨hinput, hlong⟩ := Bool.and_eq_true_iff.mp hlong
  have hnone : t.directory? (Path.normal path) = none := by
    rw [FileTree.directory?, FileTree.find]
    unfold FileTree.isTooLong at hlong
    split at hlong
    · rename_i hlocate
      rw [hlocate]
      rfl
    · cases hlong
  -- The path stands for itself, so it can be read, and then it is not too long.
  have hself : path ∈ discover config t paths := by
    refine List.mem_flatMap.mpr ⟨path, hpath, ?_⟩
    rw [expand, if_neg (by simpa using hinput)]
    simp only [hnone, List.mem_singleton]
  obtain ⟨text, htext⟩ := h path hself
  obtain ⟨bytes, hread, -⟩ := readProfile_eq_ok.mp htext
  obtain ⟨l, f, hleads, -, -⟩ := FileTree.read_eq_ok hread
  rw [FileTree.isTooLong_normal_of_locate hleads.locate] at hlong
  cases hlong

end SandboxProfile
