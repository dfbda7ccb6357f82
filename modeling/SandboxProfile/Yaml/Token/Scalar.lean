import SandboxProfile.Yaml.Token.Property

/-!
# Scalars of a document

A scalar is written plain, between quotes, or as an indented block. Where a plain or quoted
scalar runs over several lines, a single break becomes a space and of several breaks the
first is dropped; a folded block does the same between lines that are not indented further.

## Main definitions

* `Yaml.scanPlain`, `Yaml.scanQuoted` and `Yaml.scanBlock`.
-/

namespace SandboxProfile

namespace Yaml

/-! ### Line folding -/

/-- What a break and the breaks after it become. -/
def folded (first : Text) (others : Text) : Text :=
  if first ≠ ['\n'] then first ++ others
  else if others = [] then [' ']
  else others

/-! ### Quoted scalars -/

/-- The character that an escape by one letter stands for. -/
def letterEscape? : Char → Option Char
  | '0' => some '\x00'
  | 'a' => some '\x07'
  | 'b' => some '\x08'
  | 't' => some '\t'
  | '\t' => some '\t'
  | 'n' => some '\n'
  | 'v' => some '\x0b'
  | 'f' => some '\x0c'
  | 'r' => some '\r'
  | 'e' => some '\x1b'
  | ' ' => some ' '
  | '"' => some '"'
  | '\\' => some '\\'
  | '/' => some '/'
  | 'N' => some '\x85'
  | '_' => some '\xa0'
  | 'L' => some '\u2028'
  | 'P' => some '\u2029'
  | _ => none

/-- The number of hexadecimal digits that follow a letter. -/
def codeLength? : Char → Option Nat
  | 'x' => some 2
  | 'u' => some 4
  | 'U' => some 8
  | _ => none

/-- The character of a code point. The halves of surrogate pairs are no characters. -/
def charOf (n : Nat) : Except Error Char :=
  match Text.char? n with
  | some c => .ok c
  | none =>
    if n < 0x110000 then .error .malformed
    else if n < 0x80000000 then .error (.fault .beyondUnicode)
    else .error (.fault .beyondWord)

/-- A character given by its code point, after the letter that announces it. -/
def scanCode (length : Nat) (c : Cursor) : Except Error (Scanned Char) :=
  match (c.rest.take length).mapM Text.hexDigit? with
  | some digits => do
    require (digits.length = length)
    return (← charOf (Text.ofDigits 16 digits), c.skip length)
  | none => .error .malformed

/-- The breaks of the lines that follow a break inside quotes, without the blanks around
them. -/
def scanQuotedBreaks : Nat → Cursor → Except Error (Scanned Text)
  | 0, c => .ok ([], c)
  | fuel + 1, c => do
    require !c.atSeparator
    let c := c.skipWhile fun d => d = ' ' || d = '\t'
    if isBreak c.peek then
      let (s, next) := c.lineBreak
      let (more, after) ← scanQuotedBreaks fuel next
      return (s ++ more, after)
    else return ([], c)

/-- The blanks and breaks before the next characters of a quoted scalar. -/
def scanQuotedBlanks (c : Cursor) : Except Error (Scanned Text) := do
  let (blanks, after) := c.span fun d => d = ' ' || d = '\t'
  require (after.peek ≠ endMark)
  if isBreak after.peek then
    let (first, next) := after.lineBreak
    let (others, last) ← scanQuotedBreaks (next.rest.length + 1) next
    return (folded first others, last)
  else return (blanks, after)

/-- Does the character stand for itself inside quotes of either kind? -/
def isQuotedChar (d : Char) : Bool :=
  !(d = '\'' || d = '"' || d = '\\' || endsWord d)

/-- The characters of a quoted scalar up to the next blank, break or closing quote. -/
def scanQuotedChars (isDouble : Bool) : Nat → Cursor → Except Error (Scanned Text)
  | 0, c => .ok ([], c)
  | fuel + 1, c => do
    let (plain, next) := c.span isQuotedChar
    let d := next.peek
    let go (s : Text) (after : Cursor) : Except Error (Scanned Text) := do
      let (more, last) ← scanQuotedChars isDouble fuel after
      return (plain ++ s ++ more, last)
    if !isDouble && d = '\'' && next.peek 1 = '\'' then go ['\''] (next.skip 2)
    else if (isDouble && d = '\'') || (!isDouble && (d = '"' || d = '\\')) then go [d] next.step
    else if isDouble && d = '\\' then
      let letter := next.peek 1
      match letterEscape? letter, codeLength? letter with
      | some e, _ => go [e] (next.skip 2)
      | none, some length => do
        let (e, after) ← scanCode length (next.skip 2)
        go [e] after
      | none, none =>
        if isBreak letter then do
          let (breaks, after) ← scanQuotedBreaks (next.rest.length + 1) next.step.lineBreak.2
          go breaks after
        else .error .malformed
    else return (plain, next)

/-- The parts of a quoted scalar up to its closing quote, which is read. -/
def scanQuotedParts (isDouble : Bool) : Nat → Cursor → Except Error (Scanned Text)
  | 0, _ => .error .malformed
  | fuel + 1, c => do
    let (s, next) ← scanQuotedChars isDouble (c.rest.length + 1) c
    if next.peek = (if isDouble then '"' else '\'') then return (s, next.step)
    else do
      let (blanks, after) ← scanQuotedBlanks next
      let (more, last) ← scanQuotedParts isDouble fuel after
      return (s ++ blanks ++ more, last)

/-- A quoted scalar. -/
def scanQuoted (isDouble : Bool) (c : Cursor) : Except Error (Scanned Token) := do
  let (s, after) ← scanQuotedParts isDouble (c.rest.length + 1) c.step
  return (.scalar s false, after)

/-! ### Plain scalars -/

/-- The breaks of the lines that follow a break in a plain scalar, without the spaces around
them; `none` if a line separates documents. -/
def scanPlainBreaks : Nat → Cursor → Option Text × Cursor
  | 0, c => (some [], c)
  | fuel + 1, c =>
    if c.peek = ' ' then scanPlainBreaks fuel c.step
    else if isBreak c.peek then
      let (s, next) := c.lineBreak
      if next.atSeparator then (none, next)
      else
        let (more, after) := scanPlainBreaks fuel next
        (more.map (s ++ ·), after)
    else (some [], c)

/-- The spaces and breaks after a part of a plain scalar, and whether there was a break.
Nothing is left of them if the scalar cannot go on. -/
def scanPlainBlanks (c : Cursor) : Text × Bool × Cursor :=
  let (spaces, after) := c.span (· = ' ')
  if isBreak after.peek then
    let (first, next) := after.lineBreak
    if next.atSeparator then ([], true, next)
    else
      match scanPlainBreaks (next.rest.length + 1) next with
      | (some others, last) => (folded first others, true, last)
      | (none, last) => ([], true, last)
  else (spaces, false, after)

/-- The length of the next part of a plain scalar. It ends before a blank, before a colon with
a blank after it, and inside brackets or braces before their punctuation. -/
def plainLength (inFlow : Bool) : Text → Nat
  | [] => 0
  | d :: rest =>
    let next := rest.headD endMark
    let ends : Bool :=
      endsWord d ||
        (d = ':' && (endsWord next || (inFlow && ",[]\x7b\x7d".toList.contains next))) ||
        (inFlow && ",?[]\x7b\x7d".toList.contains d)
    if ends then 0 else plainLength inFlow rest + 1

/-- The parts of a plain scalar that is indented by at least `indent`, and whether a break came
after the last of them. -/
def scanPlainParts (inFlow : Bool) (indent : Int) : Nat → Cursor → Text × Bool × Cursor
  | 0, c => ([], false, c)
  | fuel + 1, c =>
    let length := if c.peek = '#' then 0 else plainLength inFlow c.rest
    if length = 0 then ([], false, c)
    else
      let part := c.rest.take length
      let (blanks, broke, next) := scanPlainBlanks (c.skip length)
      if blanks = [] ∨ next.peek = '#' ∨ (!inFlow ∧ (next.column : Int) < indent) then
        (part, broke, next)
      else
        match scanPlainParts inFlow indent fuel next with
        | ([], _, after) => (part, broke, after)
        | (more, brokeLater, after) => (part ++ blanks ++ more, brokeLater, after)

/-- A plain scalar, whether a break came after it, and the place after that. -/
def scanPlain (inFlow : Bool) (indent : Int) (c : Cursor) : Token × Bool × Cursor :=
  let (s, broke, after) := scanPlainParts inFlow indent (c.rest.length + 1) c
  (.scalar s true, broke, after)

/-! ### Blocks -/

/-- What happens to the breaks at the end of a block. -/
inductive Chomping where
  /-- All are dropped. -/
  | strip
  /-- The first is kept. -/
  | clip
  /-- All are kept. -/
  | keep
  deriving DecidableEq, Repr

/-- The sign that chooses what happens to the breaks. -/
def chomping? (d : Char) : Option Chomping :=
  if d = '+' then some .keep else if d = '-' then some .strip else none

/-- The digit that gives the indentation of a block. -/
def increment? (d : Char) : Option Nat :=
  if d.isDigit then some (d.toNat - '0'.toNat) else none

/-- The sign and the digit after the announcement of a block, in either order. -/
def scanBlockHeader (c : Cursor) : Except Error (Scanned (Chomping × Option Nat)) := do
  let (chomping, increment, after) : Option Chomping × Option Nat × Cursor :=
    match chomping? c.peek, increment? c.peek with
    | some ch, _ =>
      match increment? c.step.peek with
      | some n => (some ch, some n, c.skip 2)
      | none => (some ch, none, c.step)
    | none, some n =>
      match chomping? c.step.peek with
      | some ch => (some ch, some n, c.skip 2)
      | none => (none, some n, c.step)
    | none, none => (none, none, c)
  require (increment ≠ some 0)
  require (endsField after.peek)
  return ((chomping.getD .clip, increment), after)

/-- The breaks of the empty lines at the start of a block, and the greatest indentation among
them and the first line that is not empty. -/
def scanBlockIndent : Nat → Nat → Cursor → Text × Nat × Cursor
  | 0, greatest, c => ([], greatest, c)
  | fuel + 1, greatest, c =>
    if c.peek = ' ' then
      let next := c.step
      scanBlockIndent fuel (max greatest next.column) next
    else if isBreak c.peek then
      let (s, next) := c.lineBreak
      let (more, found, after) := scanBlockIndent fuel greatest next
      (s ++ more, found, after)
    else ([], greatest, c)

/-- The place after the spaces up to a column. -/
def skipIndent (indent : Nat) (c : Cursor) : Cursor :=
  c.skip ((c.rest.takeWhile (· = ' ')).take (indent - c.column)).length

/-- The breaks of the empty lines in a block of the given indentation, and the place after the
indentation of the next line. -/
def scanBlockBreaks (indent : Nat) : Nat → Cursor → Text × Cursor
  | 0, c => ([], c)
  | fuel + 1, c =>
    let next := skipIndent indent c
    if isBreak next.peek then
      let (s, after) := next.lineBreak
      let (more, last) := scanBlockBreaks indent fuel after
      (s ++ more, last)
    else ([], next)

/-- Is there another line of a block of the given indentation? -/
def inBlock (indent : Nat) (c : Cursor) : Bool :=
  c.column = indent && c.peek ≠ endMark

/-- Is the line indented further than its block? -/
def isIndented (c : Cursor) : Bool :=
  c.peek = ' ' || c.peek = '\t'

/-- The lines of a block, its last break, and the breaks after that. -/
def scanBlockLines (isFolded : Bool) (indent : Nat) : Nat → Cursor → Text × Text × Text × Cursor
  | 0, c => ([], [], [], c)
  | fuel + 1, c =>
    let further := isIndented c
    let (line, afterLine) := c.span fun d => !endsLine d
    let (first, afterBreak) := afterLine.lineBreak
    let (others, next) := scanBlockBreaks indent (afterBreak.rest.length + 1) afterBreak
    if inBlock indent next then
      let between :=
        if isFolded && first = ['\n'] && !further && !isIndented next then
          (if others = [] then [' '] else [])
        else first
      let (more, last, trailing, after) := scanBlockLines isFolded indent fuel next
      (line ++ between ++ others ++ more, last, trailing, after)
    else (line, first, others, next)

/-- A block whose parent is indented by `indent`. -/
def scanBlock (isFolded : Bool) (indent : Int) (c : Cursor) : Except Error (Scanned Token) := do
  let ((chomping, increment), afterHeader) ← scanBlockHeader c.step
  let body ← scanLineEnd afterHeader
  let least := max 1 (indent + 1).toNat
  let bound := body.rest.length + 1
  let (leading, column, first) : Text × Nat × Cursor :=
    match increment with
    | none =>
      let (breaks, greatest, after) := scanBlockIndent bound 0 body
      (breaks, max least greatest, after)
    | some n =>
      let column := least + n - 1
      let (breaks, after) := scanBlockBreaks column bound body
      (breaks, column, after)
  let (lines, last, trailing, after) :=
    if inBlock column first then
      let (lines, last, trailing, after) := scanBlockLines isFolded column bound first
      (leading ++ lines, last, trailing, after)
    else ([], [], leading, first)
  let text :=
    match chomping with
    | .strip => lines
    | .clip => lines ++ last
    | .keep => lines ++ last ++ trailing
  return (.scalar text false, after)

end Yaml

end SandboxProfile
