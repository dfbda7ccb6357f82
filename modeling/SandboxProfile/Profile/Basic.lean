import SandboxProfile.FileTree.Access

/-!
# Profiles

A profile is a text with the path that it was read from. The path `-` stands for the
standard input.

## Main definitions

* `Profile` is the type of profiles.
* `ProfileError` is why a profile cannot be read or written.
-/

namespace SandboxProfile

/-- A profile. -/
structure Profile where
  path : Text
  text : Text
  deriving DecidableEq, Repr

/-- The path that stands for the standard input. -/
def standardInput : Text := ['-']

/-- Why a profile cannot be read or written. -/
inductive ProfileError where
  /-- Nothing is at the path. -/
  | missing (path : Text)
  /-- The file cannot be opened for reading. -/
  | unreadable (path : Text) (e : AccessError)
  /-- The bytes of the file are no text. -/
  | undecodable (path : Text) (f : Utf8.Fault)
  /-- The bytes of the standard input are no text. -/
  | undecodableInput (f : Utf8.Fault)
  /-- The file cannot be opened for writing. -/
  | unwritable (path : Text) (e : AccessError)
  deriving DecidableEq, Repr

/-- The wording of the error. -/
def ProfileError.message : ProfileError → Text
  | missing path => "no such file: ".toList ++ path
  | unreadable path e => "cannot read ".toList ++ path ++ [':', ' '] ++ e.message path
  | undecodable path f => "cannot read ".toList ++ path ++ [':', ' '] ++ f.message
  | undecodableInput f => "cannot read standard input: ".toList ++ f.message
  | unwritable path e => "cannot write ".toList ++ path ++ [':', ' '] ++ e.message path

end SandboxProfile
