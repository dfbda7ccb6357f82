import SandboxProfile.Text.Blank
import SandboxProfile.Text.Quoted

/-!
# Keyword categories

Each keyword of a profile belongs to one of seven categories. The categories stay apart so
that a report can style them differently.

## Main definitions

* `Category.all` lists the categories in their fixed order.
* `Category.name` is the name under which reports and lists show a category.
* `Category.ofName?` accepts exactly these names.
* `Category.parse` also accepts underscores for hyphens and blanks around the name.
-/

namespace SandboxProfile

/-- The keyword categories. -/
inductive Category where
  /-- Instructions that take a path. -/
  | directive
  /-- Flags of the sandbox. -/
  | option
  /-- Options that mount a private copy of a directory. -/
  | privateOption
  /-- Filters for the two message buses. -/
  | dbusOption
  /-- Options that relax a default restriction. -/
  | specialOption
  /-- Rules of the Landlock security module. -/
  | landlockOption
  /-- Options that permit what is otherwise denied. -/
  | allowOption
  deriving DecidableEq, Repr

namespace Category

/-- All categories, in the order in which reports list them. -/
def all : List Category :=
  [directive, option, privateOption, dbusOption, specialOption, landlockOption, allowOption]

theorem mem_all (c : Category) : c ∈ all := by
  cases c <;> decide

/-- The name of a category. -/
def name : Category → String
  | directive => "directive"
  | option => "option"
  | privateOption => "private-option"
  | dbusOption => "dbus-option"
  | specialOption => "special-option"
  | landlockOption => "landlock-option"
  | allowOption => "allow-option"

/-- The category of exactly this name. -/
def ofName? (s : Text) : Option Category :=
  all.find? fun c => c.name.toList = s

theorem ofName?_name (c : Category) : ofName? c.name.toList = some c := by
  cases c <;> decide

end Category

/-- A name that is no category's. -/
structure UnknownCategory where
  name : Text
  deriving DecidableEq, Repr

/-- The wording of the error. -/
def UnknownCategory.message (e : UnknownCategory) : Text :=
  Text.quoted e.name ++ " is not a valid KeywordCategory".toList

namespace Category

/-- The category of exactly this name, or the error that there is none. -/
def ofName (s : Text) : Except UnknownCategory Category :=
  match ofName? s with
  | some c => .ok c
  | none => .error ⟨s⟩

/-- The spelling that a name is looked up under: no blanks around it, and a hyphen for every
underscore. -/
def normalName (s : Text) : Text :=
  Text.replaced '_' '-' (Text.trim s)

/-- The category that a name in any accepted spelling stands for. -/
def parse (s : Text) : Except UnknownCategory Category :=
  ofName (normalName s)

end Category

end SandboxProfile
