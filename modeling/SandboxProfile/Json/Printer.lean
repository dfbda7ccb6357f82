import SandboxProfile.Json.Basic

/-!
# Writing JSON

Values are written with one member or element to a line, each level two spaces further in,
and a space after the colon of a member. An array or object without content is written on
one line. Strings are ASCII: the quote and the backslash are escaped, so is every character
below the space or above the tilde, and a character beyond U+FFFF becomes two escapes, one
for each of its UTF-16 units.

## Main definitions

* `Json.quotedText` writes a string.
* `Json.pretty` writes a value on indented lines.
* `Json.compact` writes a value on one line.
-/

namespace SandboxProfile

namespace Json

/-- An escape by code unit. -/
def unitEscape (n : Nat) : Text :=
  '\\' :: 'u' :: Text.hex 4 n

/-- A character inside a string. -/
def escapedChar (c : Char) : Text :=
  let n := c.toNat
  if c = '"' then ['\\', '"']
  else if c = '\\' then ['\\', '\\']
  else if 0x20 ≤ n ∧ n ≤ 0x7e then [c]
  else if n = 0x08 then ['\\', 'b']
  else if n = 0x0c then ['\\', 'f']
  else if c = '\n' then ['\\', 'n']
  else if c = '\r' then ['\\', 'r']
  else if c = '\t' then ['\\', 't']
  else if n < 0x10000 then unitEscape n
  else
    unitEscape (0xd800 + (n - 0x10000) / 0x400) ++ unitEscape (0xdc00 + (n - 0x10000) % 0x400)

/-- A string with its quotes. -/
def quotedText (s : Text) : Text :=
  '"' :: s.flatMap escapedChar ++ ['"']

/-- The start of a line at the given depth. -/
def newLine (depth : Nat) : Text :=
  '\n' :: List.replicate (2 * depth) ' '

mutual

/-- A value whose lines after the first start at the given depth. -/
def prettyAt (depth : Nat) : Json → Text
  | .null => "null".toList
  | .bool true => "true".toList
  | .bool false => "false".toList
  | .int i => Text.ofInt i
  | .str s => quotedText s
  | .arr [] => ['[', ']']
  | .arr (e :: rest) =>
    '[' :: newLine (depth + 1) ++ prettyAt (depth + 1) e ++ prettyElements (depth + 1) rest ++
      newLine depth ++ [']']
  | .obj [] => ['\x7b', '\x7d']
  | .obj ((name, v) :: rest) =>
    '\x7b' :: newLine (depth + 1) ++ quotedText name ++ [':', ' '] ++ prettyAt (depth + 1) v ++
      prettyMembers (depth + 1) rest ++ newLine depth ++ ['\x7d']

/-- The elements after the first, each with the comma before it. -/
def prettyElements (depth : Nat) : List Json → Text
  | [] => []
  | e :: rest => ',' :: newLine depth ++ prettyAt depth e ++ prettyElements depth rest

/-- The members after the first, each with the comma before it. -/
def prettyMembers (depth : Nat) : List (Text × Json) → Text
  | [] => []
  | (name, v) :: rest =>
    ',' :: newLine depth ++ quotedText name ++ [':', ' '] ++ prettyAt depth v ++
      prettyMembers depth rest

end

/-- A value on indented lines. -/
def pretty (v : Json) : Text :=
  prettyAt 0 v

mutual

/-- A value on one line, without blanks. -/
def compact : Json → Text
  | .null => "null".toList
  | .bool true => "true".toList
  | .bool false => "false".toList
  | .int i => Text.ofInt i
  | .str s => quotedText s
  | .arr [] => ['[', ']']
  | .arr (e :: rest) => '[' :: compact e ++ compactElements rest ++ [']']
  | .obj [] => ['\x7b', '\x7d']
  | .obj ((name, v) :: rest) =>
    '\x7b' :: quotedText name ++ ':' :: compact v ++ compactMembers rest ++ ['\x7d']

/-- The elements after the first, each with the comma before it. -/
def compactElements : List Json → Text
  | [] => []
  | e :: rest => ',' :: compact e ++ compactElements rest

/-- The members after the first, each with the comma before it. -/
def compactMembers : List (Text × Json) → Text
  | [] => []
  | (name, v) :: rest => ',' :: quotedText name ++ ':' :: compact v ++ compactMembers rest

end

end Json

end SandboxProfile
