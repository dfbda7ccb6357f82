import SandboxProfile.Yaml.Token.Scalar

/-!
# The tokens of a document

The scanner cuts a document into its tokens. Two things need more than a look at the next
character. The columns at which indented blocks began are kept, so that a line further to
the left closes blocks; and whether a node is a key shows only at the colon after it, so the
place of a possible key is kept for every open bracket, and the key's token is added later.

## Main definitions

* `Yaml.Scanner` is the state of the scanner.
* `Scanner.fetch` cuts out the next token.
* `Yaml.tokens` is the list of tokens of a document.
-/

namespace SandboxProfile

namespace Yaml

/-- A node that is a key if a colon follows. -/
structure PossibleKey where
  /-- The number of tokens before it. -/
  before : Nat
  /-- Must it be a key? It must where it stands at the column of an open block. -/
  isRequired : Bool
  /-- Where it begins. -/
  place : Cursor

/-- Is it too late for the colon after a key? It has to come on the key's line, and soon. -/
def PossibleKey.isStale (k : PossibleKey) (now : Cursor) : Bool :=
  k.place.line ≠ now.line || 1024 < now.index - k.place.index

/-- The state of the scanner. -/
structure Scanner where
  /-- Where the next token begins. -/
  place : Cursor
  /-- The tokens so far, the last one first. -/
  tokens : List Token := []
  /-- The number of tokens so far. -/
  count : Nat := 0
  /-- The columns of the open blocks, the innermost first. -/
  indents : List Nat := []
  /-- The possible key inside the innermost open bracket, or outside of all. -/
  key : Option PossibleKey := none
  /-- The possible keys outside of that bracket, and of each bracket around it. -/
  outer : List (Option PossibleKey) := []
  /-- May a key begin here? -/
  keyAllowed : Bool := true

namespace Scanner

/-- Is a bracket or a brace open? -/
def inFlow (s : Scanner) : Bool :=
  !s.outer.isEmpty

/-- The column of the innermost open block. -/
def indent (s : Scanner) : Int :=
  match s.indents with
  | [] => -1
  | column :: _ => column

/-- Add a token. -/
def push (t : Token) (s : Scanner) : Scanner :=
  { s with tokens := t :: s.tokens, count := s.count + 1 }

/-- Add a token that comes after the first `before` ones. -/
def pushAfter (before : Nat) (t : Token) (s : Scanner) : Scanner :=
  let later := s.count - before
  { s with tokens := s.tokens.take later ++ t :: s.tokens.drop later, count := s.count + 1 }

/-- Add what was scanned and go on after it. -/
def take (scanned : Scanned Token) (s : Scanner) : Scanner :=
  { s.push scanned.1 with place := scanned.2 }

/-- Add a token of `n` characters. -/
def takeChars (n : Nat) (t : Token) (s : Scanner) : Scanner :=
  s.take (t, s.place.skip n)

/-! ### Blocks -/

/-- Open a block at a column unless one is open there or further right. The flag tells
whether it was opened. -/
def openBlock (column : Nat) (s : Scanner) : Bool × Scanner :=
  if s.indent < column then (true, { s with indents := column :: s.indents }) else (false, s)

/-- Close the blocks further right than a column. -/
def closeBlocks (column : Int) (s : Scanner) : Scanner :=
  let closed := s.indents.takeWhile fun n : Nat => column < (n : Int)
  let s := { s with indents := s.indents.drop closed.length }
  closed.foldl (fun s _ => s.push .blockEnd) s

/-- The same, if no bracket is open. -/
def unwind (column : Int) (s : Scanner) : Scanner :=
  if s.inFlow then s else s.closeBlocks column

/-! ### Keys -/

/-- A possible key, unless it has become stale. -/
def fresh (now : Cursor) : Option PossibleKey → Except Error (Option PossibleKey)
  | none => .ok none
  | some k =>
    if k.isStale now then
      if k.isRequired then .error .malformed else .ok none
    else .ok (some k)

/-- Forget the possible keys that have become stale. -/
def dropStale (s : Scanner) : Except Error Scanner := do
  return { s with key := ← fresh s.place s.key, outer := ← s.outer.mapM (fresh s.place) }

/-- Forget the possible key, which must not be required. -/
def dropKey (s : Scanner) : Except Error Scanner :=
  if s.key.any PossibleKey.isRequired then .error .malformed else .ok { s with key := none }

/-- A node begins here that may be a key. -/
def saveKey (s : Scanner) : Except Error Scanner :=
  if s.keyAllowed then do
    let required := !s.inFlow && s.indent == s.place.column
    return { ← s.dropKey with key := some ⟨s.count, required, s.place⟩ }
  else .ok s

/-- Allow keys or forbid them. -/
def allowKey (allowed : Bool) (s : Scanner) : Scanner :=
  { s with keyAllowed := allowed }

/-! ### Tokens -/

/-- The place of the next token: blanks, comments and breaks are skipped. A key may begin on a
new line outside of brackets. -/
def skipBetween : Nat → Scanner → Scanner
  | 0, s => s
  | fuel + 1, s =>
    let after := s.place.skipSpaces.skipComment
    if isBreak after.peek then
      skipBetween fuel
        { s with place := after.lineBreak.2, keyAllowed := s.keyAllowed || !s.inFlow }
    else { s with place := after }

/-- The place of the next token; a byte order mark may stand at the start. -/
def skipBlanks (s : Scanner) : Scanner :=
  let place := if s.place.index = 0 ∧ s.place.peek = '\ufeff' then s.place.step else s.place
  skipBetween (place.rest.length + 1) { s with place := place }

/-- The end of the document, a directive, or a line between documents. -/
def fetchBoundary (scanned : Scanned Token) (s : Scanner) : Except Error Scanner := do
  return ((← (s.unwind (-1)).dropKey).allowKey false).take scanned

/-- An opening bracket or brace. -/
def fetchOpening (t : Token) (s : Scanner) : Except Error Scanner := do
  let s ← s.saveKey
  return ({ s with key := none, outer := s.key :: s.outer, keyAllowed := true }).takeChars 1 t

/-- A closing bracket or brace. -/
def fetchClosing (t : Token) (s : Scanner) : Except Error Scanner := do
  let s ← s.dropKey
  match s.outer with
  | [] => .error .malformed
  | key :: outer =>
    return ({ s with key := key, outer := outer, keyAllowed := false }).takeChars 1 t

/-- A comma. -/
def fetchComma (s : Scanner) : Except Error Scanner := do
  return ((← s.dropKey).allowKey true).takeChars 1 .comma

/-- A dash or a question mark, which opens a block where none is open. -/
def fetchIndicator (block t : Token) (allowed : Bool) (s : Scanner) : Except Error Scanner := do
  let s ←
    if s.inFlow then pure s
    else do
      require s.keyAllowed
      let (isNew, s) := s.openBlock s.place.column
      pure (if isNew then s.push block else s)
  return ((← s.dropKey).allowKey allowed).takeChars 1 t

/-- A colon. The node that may be a key becomes one. -/
def fetchValue (s : Scanner) : Except Error Scanner :=
  match s.key with
  | some k =>
    let s := { s with key := none }.pushAfter k.before .key
    let s :=
      if s.inFlow then s
      else
        let (isNew, s) := s.openBlock k.place.column
        if isNew then s.pushAfter k.before .blockMapping else s
    .ok ((s.allowKey false).takeChars 1 .value)
  | none => s.fetchIndicator .blockMapping .value (!s.inFlow)

/-- A node that may be a key. -/
def fetchNode (scan : Cursor → Except Error (Scanned Token)) (s : Scanner) :
    Except Error Scanner := do
  let s ← s.saveKey
  return (s.allowKey false).take (← scan s.place)

/-- A scalar without quotes, which may be a key. -/
def fetchPlain (s : Scanner) : Except Error Scanner := do
  let s ← s.saveKey
  let (t, broke, after) := scanPlain s.inFlow (s.indent + 1) s.place
  return (s.allowKey broke).take (t, after)

/-- A scalar that is written as a block. -/
def fetchBlock (isFolded : Bool) (s : Scanner) : Except Error Scanner := do
  let s ← (s.allowKey true).dropKey
  return s.take (← scanBlock isFolded s.indent s.place)

/-- Can a scalar without quotes begin here? -/
def startsPlain (inFlow : Bool) (c : Cursor) : Bool :=
  let d := c.peek
  !(endsWord d || "-?:,[]\x7b\x7d#&*!|>'\"%@`".toList.contains d) ||
    (!endsWord (c.peek 1) && (d = '-' || (!inFlow && (d = '?' || d = ':'))))

/-- The next token, which begins here. -/
def fetchHere (s : Scanner) : Except Error Scanner :=
  let c := s.place
  let d := c.peek
  let isLast := endsWord (c.peek 1)
  let atStart := c.column = 0
  if d = endMark then s.fetchBoundary (.streamEnd, c.step)
  else if atStart && d = '%' then do
    let s ← (s.unwind (-1)).dropKey
    return (s.allowKey false).take (← scanDirective c)
  else if atStart && c.atMark '-' then s.fetchBoundary (.documentStart, c.skip 3)
  else if atStart && c.atMark '.' then s.fetchBoundary (.documentEnd, c.skip 3)
  else if d = '[' then s.fetchOpening .flowSequence
  else if d = '\x7b' then s.fetchOpening .flowMapping
  else if d = ']' then s.fetchClosing .flowSequenceEnd
  else if d = '\x7d' then s.fetchClosing .flowMappingEnd
  else if d = ',' then s.fetchComma
  else if d = '-' && isLast then s.fetchIndicator .blockSequence .entry true
  else if d = '?' && (s.inFlow || isLast) then
    s.fetchIndicator .blockMapping .key (!s.inFlow)
  else if d = ':' && (s.inFlow || isLast) then s.fetchValue
  else if d = '*' then s.fetchNode (scanAnchor .alias)
  else if d = '&' then s.fetchNode (scanAnchor .anchor)
  else if d = '!' then s.fetchNode scanTag
  else if d = '|' && !s.inFlow then s.fetchBlock false
  else if d = '>' && !s.inFlow then s.fetchBlock true
  else if d = '\'' then s.fetchNode (scanQuoted false)
  else if d = '"' then s.fetchNode (scanQuoted true)
  else if startsPlain s.inFlow c then s.fetchPlain
  else .error .malformed

/-- Cut out the next token. -/
def fetch (s : Scanner) : Except Error Scanner := do
  let s ← s.skipBlanks.dropStale
  (s.unwind s.place.column).fetchHere

/-- Has the document ended? -/
def hasEnded (s : Scanner) : Bool :=
  match s.tokens with
  | .streamEnd :: _ => true
  | _ => false

/-- All tokens from here on, after those that were cut out before. The last one is the end of
the document or a failure. -/
def finish (s : Scanner) : List Token :=
  match s.fetch with
  | .error e => (.failed e :: s.tokens).reverse
  | .ok next =>
    if next.hasEnded then next.tokens.reverse
    else if _shorter : next.place.rest.length < s.place.rest.length then finish next
    else (.failed .malformed :: next.tokens).reverse
termination_by s.place.rest.length

end Scanner

/-- The tokens of a document. -/
def tokens (s : Text) : List Token :=
  if s.all isAllowed then Scanner.finish { place := Cursor.start s } else [.failed .malformed]

end Yaml

end SandboxProfile
