import SandboxProfile.Fault
import SandboxProfile.Json.Printer

/-!
# Values that can be written

Strings can be written whatever they hold, but an integer of more than `Text.digitLimit` digits
cannot, and a value that has one cannot be written at all.

## Main definitions

* `Text.isShowable` says that an integer can be written.
* `Json.integers` lists the integers of a value.
* `Json.render` writes a value on indented lines, unless an integer in it is too long.
-/

namespace SandboxProfile

/-- Can the integer be written? Its sign does not count. -/
def Text.isShowable (i : Int) : Bool :=
  (Text.ofNat i.natAbs).length ≤ Text.digitLimit

namespace Json

mutual

/-- The integers of a value, in the order in which they are written. -/
def integers : Json → List Int
  | .null => []
  | .bool _ => []
  | .int i => [i]
  | .str _ => []
  | .arr elements => elementIntegers elements
  | .obj members => memberIntegers members

/-- The integers of the elements of an array. -/
def elementIntegers : List Json → List Int
  | [] => []
  | e :: rest => integers e ++ elementIntegers rest

/-- The integers of the members of an object. -/
def memberIntegers : List (Text × Json) → List Int
  | [] => []
  | (_, v) :: rest => integers v ++ memberIntegers rest

end

/-- The text of a value on indented lines. A value with an integer that is too long is a
fault. -/
def render (v : Json) : Except Fault Text :=
  if v.integers.all Text.isShowable then .ok v.pretty else .error .tooLongToShow

end Json

end SandboxProfile
