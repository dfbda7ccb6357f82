import SandboxProfile.Profile.Discovery
import SandboxProfile.Text.Line

/-!
# Reading and writing profiles

Files are read and written byte for byte, so their line ends stay as they are. The standard
input can be read once, and its line ends become line feeds; when it is read again it is
empty.

## Main definitions

* `readProfile` and `readInput` read a profile from a file and from the standard input.
* `readProfiles` reads several profiles, directories being replaced by their profiles.
* `writeProfile` writes a text to a file.
-/

namespace SandboxProfile

/-- The profile at a path. -/
def readProfile (tree : FileTree) (path : Text) : Except (Failure ProfileError) Profile :=
  match tree.read path with
  | .error (.fault f) => .error (.fault f)
  | .error (.reported .missing) => .error (.reported (.missing path))
  | .error (.reported e) => .error (.reported (.unreadable path e))
  | .ok bytes =>
    match Utf8.decode bytes with
    | .ok text => .ok ⟨path, text⟩
    | .error f => .error (.reported (.undecodable path f))

/-- The profile on the standard input, whose bytes are given. -/
def readInput (input : List UInt8) : Except (Failure ProfileError) Profile :=
  match Utf8.decode input with
  | .ok text => .ok ⟨standardInput, unifyBreaks text⟩
  | .error f => .error (.reported (.undecodableInput f))

/-- The profiles at several paths, in order. -/
def readPaths (tree : FileTree) (input : List UInt8) :
    List Text → Except (Failure ProfileError) (List Profile)
  | [] => .ok []
  | path :: rest =>
    if path = standardInput then do
      let p ← readInput input
      return p :: (← readPaths tree [] rest)
    else do
      let p ← readProfile tree path
      return p :: (← readPaths tree input rest)

/-- The profiles that several paths stand for. All directories are looked for before any profile
is read. -/
def readProfiles (c : Config) (tree : FileTree) (input : List UInt8) (paths : List Text) :
    Except (Failure ProfileError) (List Profile) :=
  if holdsTooLong tree paths then .error (.fault .pathTooLong)
  else readPaths tree input (discover c tree paths)

/-- Write a text to the file at a path. -/
def writeProfile (tree : FileTree) (path text : Text) :
    Except (Failure ProfileError) FileTree :=
  match tree.write path (Utf8.encode text) with
  | .ok t => .ok t
  | .error (.fault f) => .error (.fault f)
  | .error (.reported e) => .error (.reported (.unwritable path e))

end SandboxProfile
