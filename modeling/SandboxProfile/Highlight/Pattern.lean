import SandboxProfile.Text.Blank

/-!
# Variables and paths

Two patterns are found inside a line whatever its tokens are. A *variable* is a dollar sign
with a name in braces; the name is made of ASCII capitals, digits and underscores and does
not start with a digit. A *path* is a slash together with all characters up to the next
blank, provided that there is at least one.

## Main definitions

* `variableLength?` measures the variable at the start of a text.
* `variableColumns` and `pathColumns` tell for each column whether it lies in a variable or a
  path.
* `holdsVariable` and `holdsPath` tell whether a text has one anywhere.
-/

namespace SandboxProfile

/-- Can the character start the name of a variable? -/
def isNameStart (c : Char) : Bool :=
  ('A' ≤ c && c ≤ 'Z') || c = '_'

/-- Can the character continue the name of a variable? -/
def isNameChar (c : Char) : Bool :=
  isNameStart c || ('0' ≤ c && c ≤ '9')

/-- The number of characters up to and including the closing brace of a name. -/
def nameLength? : Text → Option Nat
  | [] => none
  | c :: rest =>
    if c = '\x7d' then some 1
    else if isNameChar c then (nameLength? rest).map (· + 1)
    else none

/-- The length of the variable that a text starts with. -/
def variableLength? : Text → Option Nat
  | '$' :: '\x7b' :: c :: rest =>
    if isNameStart c then (nameLength? rest).map (· + 3) else none
  | _ => none

/-- For each character of a text, whether it lies in a variable. The number says how many
characters of a variable that began before are still to come. -/
def variableColumnsFrom : Nat → Text → List Bool
  | _, [] => []
  | n + 1, _ :: rest => true :: variableColumnsFrom n rest
  | 0, c :: rest =>
    match variableLength? (c :: rest) with
    | some n => true :: variableColumnsFrom (n - 1) rest
    | none => false :: variableColumnsFrom 0 rest

/-- For each character of a text, whether it lies in a variable. -/
def variableColumns (s : Text) : List Bool :=
  variableColumnsFrom 0 s

/-- Does the text start with a character that is not blank? -/
def startsInk : Text → Bool
  | [] => false
  | c :: _ => !isBlank c

/-- For each character of a text, whether it lies in a path. The flag tells whether the
character before the text does. -/
def pathColumnsFrom : Bool → Text → List Bool
  | _, [] => []
  | inPath, c :: rest =>
    let here := if inPath then !isBlank c else c = '/' && startsInk rest
    here :: pathColumnsFrom here rest

/-- For each character of a text, whether it lies in a path. -/
def pathColumns (s : Text) : List Bool :=
  pathColumnsFrom false s

/-- Is there a variable anywhere in the text? -/
def holdsVariable (s : Text) : Bool :=
  (variableColumns s).contains true

/-- Is there a path anywhere in the text? -/
def holdsPath (s : Text) : Bool :=
  (pathColumns s).contains true

end SandboxProfile
