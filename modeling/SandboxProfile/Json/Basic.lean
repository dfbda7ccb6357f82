import SandboxProfile.Text.Basic

/-!
# JSON values

The values that reports are made of. An object keeps its members in order, and numbers are
integers, since no report holds any other number.

## Main definitions

* `Json` is the type of values.
* `Json.member?` looks a member of an object up.
-/

namespace SandboxProfile

/-- A JSON value. -/
inductive Json where
  | null
  | bool (b : Bool)
  | int (i : Int)
  | str (s : Text)
  | arr (elements : List Json)
  /-- An object, with its members in order. -/
  | obj (members : List (Text × Json))
  deriving Repr

/-- The member of this name in an object; the last one if there are several. -/
def Json.member? (name : Text) : Json → Option Json
  | .obj members => (members.reverse.find? fun m => m.1 = name).map Prod.snd
  | _ => none

end SandboxProfile
