import SandboxProfile.Text.Integer
import SandboxProfile.Yaml.Token.Basic

/-!
# Directives, anchors and tags

The tokens that stand before nodes and documents and say something about them. Each scanner
starts at the character that announces its token.

## Main definitions

* `Yaml.scanDirective`, `Yaml.scanAnchor` and `Yaml.scanTag`.
-/

namespace SandboxProfile

namespace Yaml

/-- What a scanner read and the place after it. -/
abbrev Scanned (α : Type) := α × Cursor

/-- Go on only if a condition holds. -/
def require (condition : Bool) : Except Error Unit :=
  if condition then .ok () else .error .malformed

/-- Can the character be part of a name? -/
def isNameChar (c : Char) : Bool :=
  c.isAlphanum || c = '-' || c = '_'

/-- A name of at least one character. -/
def scanName (c : Cursor) : Except Error (Scanned Text) := do
  let (name, after) := c.span isNameChar
  require (name ≠ [])
  return (name, after)

/-! ### Tags -/

/-- Can the character be part of the name of a type? -/
def isTagChar (c : Char) : Bool :=
  c.isAlphanum || "-;/?:@&=+$,_.!~*'()[]".toList.contains c

/-- The bytes that escapes of a percent sign and two hexadecimal digits give. -/
def scanEscapes : Nat → Cursor → Except Error (Scanned (List UInt8))
  | 0, c => .ok ([], c)
  | fuel + 1, c =>
    if c.peek = '%' then
      match Text.hexDigit? (c.peek 1), Text.hexDigit? (c.peek 2) with
      | some h, some l => do
        let (bytes, after) ← scanEscapes fuel (c.skip 3)
        return (UInt8.ofNat (h * 16 + l) :: bytes, after)
      | _, _ => .error .malformed
    else .ok ([], c)

/-- The name of a type, which may be empty. -/
def scanTagChars : Nat → Cursor → Except Error (Scanned Text)
  | 0, c => .ok ([], c)
  | fuel + 1, c =>
    if c.peek = '%' then do
      let (bytes, after) ← scanEscapes c.rest.length c
      match Utf8.decode bytes with
      | .ok s => do
        let (more, last) ← scanTagChars fuel after
        return (s ++ more, last)
      | .error _ => .error .malformed
    else
      match c.span isTagChar with
      | ([], _) => .ok ([], c)
      | (s, after) => do
        let (more, last) ← scanTagChars fuel after
        return (s ++ more, last)

/-- The name of a type, which must not be empty. -/
def scanTagName (c : Cursor) : Except Error (Scanned Text) := do
  let (name, after) ← scanTagChars (c.rest.length + 1) c
  require (name ≠ [])
  return (name, after)

/-- A handle: an exclamation mark, or a name between two of them. -/
def scanHandle (c : Cursor) : Except Error (Scanned Text) := do
  require (c.peek = '!')
  if c.peek 1 = ' ' then return (['!'], c.skip 1)
  let (name, after) := (c.skip 1).span isNameChar
  require (after.peek = '!')
  return ('!' :: name ++ ['!'], after.step)

/-- Is there a second exclamation mark before the next blank? -/
def hasHandle (c : Cursor) : Bool :=
  ((c.rest.drop 1).takeWhile fun d => !endsField d).contains '!'

/-- The type of a node. -/
def scanTag (c : Cursor) : Except Error (Scanned Token) := do
  let (token, after) ←
    if c.peek 1 = '<' then do
      let (name, close) ← scanTagName (c.skip 2)
      require (close.peek = '>')
      pure (Token.tag none name, close.step)
    else if endsWord (c.peek 1) then pure (Token.tag none ['!'], c.step)
    else do
      let (handle, afterHandle) ← if hasHandle c then scanHandle c else pure (['!'], c.step)
      let (suffix, last) ← scanTagName afterHandle
      pure (Token.tag (some handle) suffix, last)
  require (endsField after.peek)
  return (token, after)

/-! ### Anchors -/

/-- Can the character follow the name of an anchor? -/
def endsAnchor (c : Char) : Bool :=
  endsWord c || "?:,]\x7d%@`".toList.contains c

/-- An anchor or an alias, made a token by `make`. -/
def scanAnchor (make : Text → Token) (c : Cursor) : Except Error (Scanned Token) := do
  let (name, after) ← scanName c.step
  require (endsAnchor after.peek)
  return (make name, after)

/-! ### Directives -/

/-- A number in decimal, which may not have too many digits. -/
def scanNumber (c : Cursor) : Except Error (Scanned Nat) := do
  let (digits, after) := c.span Char.isDigit
  require (digits ≠ [])
  if Text.digitLimit < digits.length then .error (.fault (.tooManyDigits digits.length))
  else return (Text.ofDigits 10 (digits.map fun d => d.toNat - '0'.toNat), after)

/-- What follows the name of a directive. -/
def scanDirectiveValue (name : Text) (c : Cursor) : Except Error (Scanned Token) :=
  if name = "YAML".toList then do
    let (major, afterMajor) ← scanNumber c.skipSpaces
    require (afterMajor.peek = '.')
    let (_, after) ← scanNumber afterMajor.step
    require (endsField after.peek)
    return (.version major, after)
  else if name = "TAG".toList then do
    let (handle, afterHandle) ← scanHandle c.skipSpaces
    require (afterHandle.peek = ' ')
    let (stands, after) ← scanTagName afterHandle.skipSpaces
    require (endsField after.peek)
    return (.handle handle stands, after)
  else .ok (.otherDirective, c.skipWhile fun d => !endsLine d)

/-- The rest of a line that may hold a comment and nothing else, with its break. -/
def scanLineEnd (c : Cursor) : Except Error Cursor := do
  let last := c.skipSpaces.skipComment
  require (endsLine last.peek)
  return last.lineBreak.2

/-- A directive with its line. -/
def scanDirective (c : Cursor) : Except Error (Scanned Token) := do
  let (name, afterName) ← scanName c.step
  require (endsField afterName.peek)
  let (token, after) ← scanDirectiveValue name afterName
  return (token, ← scanLineEnd after)

end Yaml

end SandboxProfile
