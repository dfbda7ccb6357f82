import SandboxProfile.Text.Basic

/-!
# Paths

A path is a text in which slashes separate names. Several spellings lead to one place; the
normal one has no empty names and no points for the place itself. Steps to the parent are
kept, for where they lead depends on the files that there are.

## Main definitions

* `Path.names` are the names in a path.
* `Path.normal` is its normal spelling.
* `Path.below` is the path of something inside a directory.
* `Path.suffix` is the end of a name that tells the kind of a file.
-/

namespace SandboxProfile

namespace Path

/-- The step to the place itself. -/
def here : Text := ['.']

/-- The step to the parent. -/
def parent : Text := ['.', '.']

/-- The most bytes that a name may have. -/
def nameLimit : Nat := 255

/-- The most bytes that a path may have. -/
def limit : Nat := 4095

/-- The names in a path, steps to the place itself among them. -/
def names (path : Text) : List Text :=
  (Text.splitOn '/' path).filter (· ≠ [])

/-- Does the path begin at the root of all files? -/
def isAbsolute (path : Text) : Bool :=
  path.head? = some '/'

/-- Does the path demand a directory, by a slash at its end? -/
def endsInSlash (path : Text) : Bool :=
  path.getLast? = some '/'

/-- The slashes that the normal spelling begins with: two if the path begins with exactly two,
and else at most one. -/
def root (path : Text) : Text :=
  match path.takeWhile (· = '/') with
  | [] => []
  | ['/', '/'] => ['/', '/']
  | _ => ['/']

/-- The normal spelling of a path. -/
def normal (path : Text) : Text :=
  let steps := (names path).filter (· ≠ here)
  if root path = [] ∧ steps = [] then here else root path ++ Text.joined ['/'] steps

/-- The path of what the given names lead to inside of a directory in normal spelling. -/
def below (directory : Text) (steps : List Text) : Text :=
  match steps with
  | [] => directory
  | _ =>
    if directory = here then Text.joined ['/'] steps
    else if endsInSlash directory then directory ++ Text.joined ['/'] steps
    else directory ++ '/' :: Text.joined ['/'] steps

/-- The suffix of a name: its last point and what follows. A point at either end of the name
starts no suffix. -/
def suffix (name : Text) : Text :=
  let extension := (name.reverse.takeWhile (· ≠ '.')).reverse
  let stem := name.take (name.length - extension.length - 1)
  if extension = [] ∨ stem = [] then [] else '.' :: extension

end Path

end SandboxProfile
