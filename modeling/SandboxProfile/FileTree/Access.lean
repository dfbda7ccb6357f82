import SandboxProfile.Fault
import SandboxProfile.FileTree.Basic

/-!
# Access to files

A path is followed name by name from the working directory, and every name but the last has
to lead to a directory. What cannot be reached, read or written is an access error; a path
that holds a NUL is a fault. Names and paths have a greatest length in bytes: opening what is
beyond it is an access error, but only asking what is there is a fault.

## Main definitions

* `AccessError` is why a file cannot be accessed.
* `FileTree.locate` follows a path.
* `FileTree.read` and `FileTree.write` read a file and write one.
* `FileTree.isFile` and `FileTree.directory?` test what is at a path.
* `FileTree.isTooLong` says that a path is too long for that.

## Main results

* `FileTree.read_of_write` — what was written is read.
-/

namespace SandboxProfile

/-- Why a file cannot be accessed. -/
inductive AccessError where
  /-- Nothing is there. -/
  | missing
  /-- The path leads through a file. -/
  | notDirectory
  /-- A directory is there. -/
  | isDirectory
  /-- It is not allowed. -/
  | denied
  /-- The path, or a name in it, has too many bytes. -/
  | tooLong
  deriving DecidableEq, Repr

/-- The wording of an access error at a path, with the number that systems give it. -/
def AccessError.message (e : AccessError) (path : Text) : Text :=
  let words :=
    match e with
    | missing => "[Errno 2] No such file or directory: "
    | notDirectory => "[Errno 20] Not a directory: "
    | isDirectory => "[Errno 21] Is a directory: "
    | denied => "[Errno 13] Permission denied: "
    | tooLong => "[Errno 36] File name too long: "
  words.toList ++ Text.quoted path

namespace FileTree

/-! ### Following paths -/

/-- The place around a place. Around the working directory there are places that only paths
upwards lead to. -/
def parentOf (l : Location) : Location :=
  match l.getLast? with
  | none => [Path.parent]
  | some name =>
    if name = Path.parent then l ++ [Path.parent]
    else if name = ['/'] then l
    else l.dropLast

/-- The place that a name leads to from a place, whatever is there. -/
def follow (l : Location) (name : Text) : Location :=
  if name = Path.here then l
  else if name = Path.parent then parentOf l
  else l ++ [name]

/-- The place that a path starts from. -/
def startOf (path : Text) : Location :=
  if Path.isAbsolute path then [['/']] else []

/-- Go one step on from a place, which has to be a directory. -/
def step (t : FileTree) (l : Location) (name : Text) : Except AccessError Location :=
  match t.get? l with
  | none => .error .missing
  | some (.file _) => .error .notDirectory
  | some .directory =>
    if Path.nameLimit < Utf8.size name then .error .tooLong else .ok (follow l name)

/-- The place that a path leads to, at which there may be nothing. -/
def locate (t : FileTree) (path : Text) : Except AccessError Location :=
  if path = [] then .error .missing
  else if Path.limit < Utf8.size path then .error .tooLong
  else (Path.names path).foldlM t.step (startOf path)

/-- Is the path too long to ask what is at it? Nothing is at a path that holds a NUL, however
long it is. -/
def isTooLong (t : FileTree) (path : Text) : Bool :=
  match t.locate path with
  | .error .tooLong => !path.contains '\x00'
  | _ => false

/-- What is at a path. -/
def find (t : FileTree) (path : Text) : Except AccessError (Location × Item) := do
  let l ← t.locate path
  match t.get? l with
  | none => .error .missing
  | some .directory => return (l, .directory)
  | some (.file f) =>
    if Path.endsInSlash path then .error .notDirectory else return (l, .file f)

/-- Is there a file at a path? -/
def isFile (t : FileTree) (path : Text) : Bool :=
  match t.find path with
  | .ok (_, .file _) => true
  | _ => false

/-- The place of the directory at a path, if there is one. -/
def directory? (t : FileTree) (path : Text) : Option Location :=
  match t.find path with
  | .ok (l, .directory) => some l
  | _ => none

/-- A step that succeeds also succeeds in a tree that has the same directories and more. -/
theorem step_of_directories {t u : FileTree}
    (h : ∀ k, t.get? k = some .directory → u.get? k = some .directory) {l m : Location}
    {name : Text} (hs : t.step l name = .ok m) : u.step l name = .ok m := by
  unfold step at hs ⊢
  split at hs
  · contradiction
  · contradiction
  · rename_i hd
    simp only [h l hd]
    exact hs

/-- So does a path. -/
theorem foldlM_step_of_directories {t u : FileTree}
    (h : ∀ k, t.get? k = some .directory → u.get? k = some .directory) :
    ∀ {names : List Text} {l m : Location},
      names.foldlM t.step l = .ok m → names.foldlM u.step l = .ok m
  | [], _, _, hs => hs
  | name :: names, l, m, hs => by
    rw [List.foldlM_cons] at hs ⊢
    cases hn : t.step l name with
    | error e => rw [hn] at hs; contradiction
    | ok k =>
      rw [hn] at hs
      rw [step_of_directories h hn]
      exact foldlM_step_of_directories h hs

/-- A path leads to the same place in a tree that has the same directories and more. -/
theorem locate_of_directories {t u : FileTree}
    (h : ∀ k, t.get? k = some .directory → u.get? k = some .directory) {path : Text}
    {l : Location} (hl : t.locate path = .ok l) : u.locate path = .ok l := by
  unfold locate at hl ⊢
  split at hl
  · contradiction
  · rename_i hp
    rw [if_neg hp]
    split at hl
    · contradiction
    · rename_i hlength
      rw [if_neg hlength]
      exact foldlM_step_of_directories h hl

/-! ### Reading and writing -/

/-- An access error as the failure of a command. -/
def reportAccess {α : Type} : Except AccessError α → Except (Failure AccessError) α
  | .ok a => .ok a
  | .error e => .error (.reported e)

/-- The bytes of the file at a path. -/
def read (t : FileTree) (path : Text) : Except (Failure AccessError) (List UInt8) :=
  if path.contains '\x00' then .error (.fault .nulInPath)
  else
    match t.find path with
    | .error e => .error (.reported e)
    | .ok (_, .directory) => .error (.reported .isDirectory)
    | .ok (_, .file f) => if f.access = .none then .error (.reported .denied) else .ok f.content

/-- Write bytes at a place, where there may be nothing yet. -/
def writeAt (t : FileTree) (l : Location) (bytes : List UInt8) : Except AccessError FileTree :=
  match t.get? l with
  | none => .ok (t.put l (.file ⟨bytes, .full⟩))
  | some .directory => .error .isDirectory
  | some (.file f) =>
    if f.access = .full then .ok (t.put l (.file ⟨bytes, .full⟩)) else .error .denied

/-- Write bytes to the file at a path, which is created if need be. -/
def write (t : FileTree) (path : Text) (bytes : List UInt8) :
    Except (Failure AccessError) FileTree :=
  if path.contains '\x00' then .error (.fault .nulInPath)
  else
    reportAccess do
      let l ← t.locate path
      if Path.endsInSlash path then .error .isDirectory else t.writeAt l bytes

/-- Writing at a place puts a file there, where no directory was. -/
theorem writeAt_eq_ok {t u : FileTree} {l : Location} {bytes : List UInt8}
    (h : t.writeAt l bytes = .ok u) :
    u = t.put l (.file ⟨bytes, .full⟩) ∧ t.get? l ≠ some .directory := by
  unfold writeAt at h
  split at h
  · rename_i hn
    exact ⟨(Except.ok.inj h).symm, by simp [hn]⟩
  · contradiction
  · rename_i hf
    split at h
    · exact ⟨(Except.ok.inj h).symm, by simp [hf]⟩
    · contradiction

/-- Writing to a path succeeds only where the path leads, and without a slash at its end. -/
theorem write_eq_ok {t u : FileTree} {path : Text} {bytes : List UInt8}
    (h : t.write path bytes = .ok u) :
    path.contains '\x00' = false ∧ Path.endsInSlash path = false ∧
      ∃ l, t.locate path = .ok l ∧ t.writeAt l bytes = .ok u := by
  unfold write at h
  split at h
  · contradiction
  · rename_i hz
    cases hl : t.locate path with
    | error e => rw [hl] at h; contradiction
    | ok l =>
      rw [hl] at h
      cases hs : Path.endsInSlash path with
      | true => rw [hs] at h; contradiction
      | false =>
        rw [hs] at h
        refine ⟨by simpa using hz, rfl, l, rfl, ?_⟩
        cases hw : t.writeAt l bytes with
        | error e =>
          simp [bind, Except.bind, reportAccess, hw] at h
        | ok v =>
          simp only [bind, Except.bind, reportAccess, hw] at h
          exact congrArg Except.ok (Except.ok.inj h)

/-- What was written is read. -/
theorem read_of_write {t u : FileTree} {path : Text} {bytes : List UInt8}
    (h : t.write path bytes = .ok u) : u.read path = .ok bytes := by
  obtain ⟨hz, hs, l, hl, hw⟩ := write_eq_ok h
  obtain ⟨rfl, hd⟩ := writeAt_eq_ok hw
  have hne : isAround l = false := by
    cases ha : isAround l with
    | false => rfl
    | true => exact absurd (by rw [get?, ha, if_pos rfl]) hd
  have hu : (t.put l (.file ⟨bytes, .full⟩)).locate path = .ok l :=
    locate_of_directories
      (fun k hk => by
        have hkl : k ≠ l := fun he => hd (by rw [← he]; exact hk)
        rw [get?_put_of_ne hkl, hk]) hl
  have hf : (t.put l (.file ⟨bytes, .full⟩)).find path = .ok (l, .file ⟨bytes, .full⟩) := by
    simp [find, hu, get?_put_self hne, hs, bind, Except.bind, pure, Except.pure]
  rw [read, hz, hf]
  rfl

end FileTree

end SandboxProfile
