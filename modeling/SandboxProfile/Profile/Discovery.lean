import SandboxProfile.Config.Basic
import SandboxProfile.Glob
import SandboxProfile.Profile.Basic

/-!
# Discovering profiles

A path of a directory stands for the profiles inside of it: the files at any depth whose
suffix is that of a profile and whose name and path no pattern excludes. Every other path
stands for itself, whatever its suffix.

## Main definitions

* `isExcluded` compares a file with the patterns.
* `profilesIn` are the paths of the profiles in a directory.
* `discover` replaces the directories in a list of paths by their profiles; `holdsTooLong`
  says that there is a path for which this cannot be asked.
-/

namespace SandboxProfile

/-- Does a pattern exclude the file of this name and path? -/
def isExcluded (patterns : List Text) (name path : Text) : Bool :=
  patterns.any fun p => Glob.isMatch p name || Glob.isMatch p path

/-- Is this a profile, by its suffix and by the patterns that exclude files? -/
def isProfile (c : Config) (name path : Text) : Bool :=
  c.extensions.contains (Path.suffix name) && !isExcluded c.exclude name path

/-- The paths of the profiles inside of a directory, which is at `l` and has the path
`directory`, in order. The paths that are made on the way are taken to be short enough, however
deep the directory is. -/
def profilesIn (c : Config) (tree : FileTree) (directory : Text) (l : Location) : List Text :=
  (tree.below l).filterMap fun (steps, item) =>
    let path := Path.below directory steps
    match item, steps.getLast? with
    | .file _, some name => if isProfile c name path then some path else none
    | _, _ => none

/-- The paths that a path stands for. -/
def expand (c : Config) (tree : FileTree) (path : Text) : List Text :=
  if path = standardInput then [path]
  else
    let normal := Path.normal path
    match tree.directory? normal with
    | some l => profilesIn c tree normal l
    | none => [path]

/-- Is one of the paths too long to ask whether a directory is at it? -/
def holdsTooLong (tree : FileTree) (paths : List Text) : Bool :=
  paths.any fun path => path ≠ standardInput && tree.isTooLong (Path.normal path)

/-- The paths that several paths stand for. -/
def discover (c : Config) (tree : FileTree) (paths : List Text) : List Text :=
  paths.flatMap (expand c tree)

end SandboxProfile
