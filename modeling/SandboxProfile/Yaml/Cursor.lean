import SandboxProfile.Text.Basic

/-!
# Places in a document

Indentation and line breaks carry meaning in YAML, so the scanner reads from a place in the
document that knows its line and its column. After the end of the document a cursor shows
the NUL, which no document may hold.

## Main definitions

* `Yaml.Cursor` is a place in a document.
* `Cursor.peek`, `Cursor.skip` and `Cursor.span` look ahead and move on.
* `Cursor.lineBreak` reads a line break.
-/

namespace SandboxProfile

namespace Yaml

/-- The character that a cursor shows after the end. -/
def endMark : Char := '\x00'

/-- Does the character end a line? -/
def isBreak (c : Char) : Bool :=
  c = '\n' || c = '\x85' || c = '\u2028' || c = '\u2029'

/-- Does the character end a line or the document? -/
def endsLine (c : Char) : Bool :=
  c = endMark || isBreak c

/-- Does the character end a line or the document, or is it a space? -/
def endsField (c : Char) : Bool :=
  c = ' ' || endsLine c

/-- Does the character end a line or the document, or is it a space or a tab? -/
def endsWord (c : Char) : Bool :=
  c = '\t' || endsField c

/-- May the character stand in a document? -/
def isAllowed (c : Char) : Bool :=
  let n := c.toNat
  n = 0x09 || n = 0x0a || n = 0x0d || (0x20 ≤ n && n ≤ 0x7e) || n = 0x85 ||
    (0xa0 ≤ n && n ≤ 0xfffd) || 0x10000 ≤ n

/-- A place in a document. -/
structure Cursor where
  /-- What follows. -/
  rest : Text
  /-- The number of characters before the place. -/
  index : Nat
  /-- The number of line breaks before it. -/
  line : Nat
  /-- The number of characters before it on its line; byte order marks do not count. -/
  column : Nat

namespace Cursor

/-- The start of a document. -/
def start (s : Text) : Cursor :=
  ⟨s, 0, 0, 0⟩

/-- The character `k` places ahead. -/
def peek (c : Cursor) (k : Nat := 0) : Char :=
  c.rest.getD k endMark

/-- The place after the next character. -/
def step (c : Cursor) : Cursor :=
  match c.rest with
  | [] => c
  | d :: rest =>
    if isBreak d then ⟨rest, c.index + 1, c.line + 1, 0⟩
    else ⟨rest, c.index + 1, c.line, if d = '\ufeff' then c.column else c.column + 1⟩

/-- The place `n` characters on. -/
def skip (c : Cursor) : Nat → Cursor
  | 0 => c
  | n + 1 => c.step.skip n

/-- The characters from here on that satisfy `p`, and the place after them. -/
def span (c : Cursor) (p : Char → Bool) : Text × Cursor :=
  let s := c.rest.takeWhile p
  (s, c.skip s.length)

/-- The place after the characters that satisfy `p`. -/
def skipWhile (c : Cursor) (p : Char → Bool) : Cursor :=
  (c.span p).2

/-- The place after the spaces. -/
def skipSpaces (c : Cursor) : Cursor :=
  c.skipWhile (· = ' ')

/-- A line break, if there is one. The two separators of Unicode stay as they are, and any
other break becomes a line feed. -/
def lineBreak (c : Cursor) : Text × Cursor :=
  let d := c.peek
  if d = '\n' ∨ d = '\x85' then (['\n'], c.step)
  else if d = '\u2028' ∨ d = '\u2029' then ([d], c.step)
  else ([], c)

/-- Is this the start of a line that separates documents with the given mark? -/
def atMark (c : Cursor) (mark : Char) : Bool :=
  c.rest.take 3 = [mark, mark, mark] && endsWord (c.peek 3)

/-- Is this the start of a line that separates documents? -/
def atSeparator (c : Cursor) : Bool :=
  c.atMark '-' || c.atMark '.'

/-- The place after a comment. -/
def skipComment (c : Cursor) : Cursor :=
  if c.peek = '#' then c.skipWhile fun d => !endsLine d else c

end Cursor

end Yaml

end SandboxProfile
