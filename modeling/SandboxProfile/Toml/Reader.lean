import SandboxProfile.Toml.Draft

/-!
# Reading TOML

A document is read statement by statement. Values nest, so their readers carry a bound on
the depth of the recursion, which the length of the document supplies; running out of it
cannot happen, and counts as malformed. Neither how deeply values nest nor how long the
document is has a limit of its own: that a stack or the memory runs out is left out.

## Main definitions

* `Toml.readValue` reads a value.
* `Toml.read` reads a document into the entries of its table.
-/

namespace SandboxProfile

namespace Toml

/-- What stood at the start of a text, and the text after it. -/
abbrev Read (α : Type) := α × Text

/-- What was read, or the error that nothing could be read. -/
def orMalformed {α : Type} : Option α → Except Error α
  | some a => .ok a
  | none => .error .malformed

/-! ### Keys and comments -/

/-- One part of a key. -/
def readKeyPart (s : Text) : Except Error (Read Text) :=
  match s with
  | '"' :: rest => orMalformed (readQuoted? rest)
  | '\'' :: rest => orMalformed (readLiteral? rest)
  | _ =>
    match s.takeWhile isBareKey with
    | [] => .error .malformed
    | part => .ok (part, s.dropWhile isBareKey)

/-- A key of one part or of several with points between them, and the blanks after it. -/
def readKey : Nat → Text → Except Error (Read Key)
  | 0, _ => .error .malformed
  | fuel + 1, s => do
    let (part, after) ← readKeyPart s
    match skipSpace after with
    | '.' :: rest => do
      let (parts, last) ← readKey fuel (skipSpace rest)
      return (part :: parts, last)
    | rest => return ([part], rest)

/-- A text without the comment at its start. -/
def skipComment (s : Text) : Except Error Text :=
  match s with
  | '#' :: rest =>
    if (rest.takeWhile (· ≠ '\n')).any isControl then .error .malformed
    else .ok (rest.dropWhile (· ≠ '\n'))
  | _ => .ok s

/-- A text without the blanks, line feeds and comments at its start. -/
def skipLines : Nat → Text → Except Error Text
  | 0, s => .ok s
  | fuel + 1, s =>
    match s.dropWhile fun c => isSpace c || c = '\n' with
    | '#' :: rest => do skipLines fuel (← skipComment ('#' :: rest))
    | rest => .ok rest

/-! ### Values -/

mutual

/-- A value of any type. -/
def readValue : Nat → Text → Except Error (Read Value)
  | 0, _ => .error .malformed
  | fuel + 1, s =>
    match s with
    | '[' :: rest => do
      match ← skipLines rest.length rest with
      | ']' :: after => return (.list [], after)
      | first =>
        let (elements, after) ← readElements fuel first
        return (.list elements, after)
    | '\x7b' :: rest =>
      match skipSpace rest with
      | '\x7d' :: after => return (.table [], after)
      | first => do
        let (entries, after) ← readInline fuel [] [] first
        return (.table entries, after)
    | 't' :: 'r' :: 'u' :: 'e' :: after => return (.bool true, after)
    | 'f' :: 'a' :: 'l' :: 's' :: 'e' :: after => return (.bool false, after)
    | c :: rest =>
      if c = '"' ∨ c = '\'' then do
        let (text, after) ← orMalformed (readString? (c :: rest))
        return (.text text, after)
      else
        match readCalendar? s with
        | some (value, after) => do return (← value, after)
        | none =>
          match readNumber? s with
          | some (value, after) => do return (← value, after)
          | none => .error .malformed
    | [] => .error .malformed

/-- The elements of a list up to its end. A comma may follow the last one. -/
def readElements : Nat → Text → Except Error (Read (List Value))
  | 0, _ => .error .malformed
  | fuel + 1, s => do
    let (value, after) ← readValue fuel s
    match ← skipLines after.length after with
    | ']' :: rest => return ([value], rest)
    | ',' :: rest =>
      match ← skipLines rest.length rest with
      | ']' :: last => return ([value], last)
      | next =>
        let (values, last) ← readElements fuel next
        return (value :: values, last)
    | _ => .error .malformed

/-- The entries of a table in braces up to its end, after those that were read before. -/
def readInline : Nat → List Key → Entries → Text → Except Error (Read Entries)
  | 0, _, _, _ => .error .malformed
  | fuel + 1, closed, entries, s => do
    let ((key, value), after) ← readPair fuel s
    let (entries, closed) ← orMalformed (addInline key value closed entries)
    match skipSpace after with
    | '\x7d' :: rest => return (entries, rest)
    | ',' :: rest => readInline fuel closed entries (skipSpace rest)
    | _ => .error .malformed

/-- A key, an equals sign and a value. -/
def readPair : Nat → Text → Except Error (Read (Key × Value))
  | 0, _ => .error .malformed
  | fuel + 1, s => do
    let (key, after) ← readKey (s.length + 1) s
    match after with
    | '=' :: rest =>
      let (value, last) ← readValue fuel (skipSpace rest)
      return ((key, value), last)
    | _ => .error .malformed

end

/-! ### Statements -/

/-- A header, after its opening bracket. -/
def readHeader (d : Draft) (s : Text) : Except Error (Read Draft) :=
  match s with
  | '[' :: rest => do
    let (key, after) ← readKey (rest.length + 1) (skipSpace rest)
    let d ← orMalformed (d.openElement key)
    match after with
    | ']' :: ']' :: last => return (d, last)
    | _ => .error .malformed
  | _ => do
    let (key, after) ← readKey (s.length + 1) (skipSpace s)
    let d ← orMalformed (d.openTable key)
    match after with
    | ']' :: last => return (d, last)
    | _ => .error .malformed

/-- One statement, or nothing where the line has none. -/
def readStatement (d : Draft) (s : Text) : Except Error (Read Draft) :=
  match s with
  | [] => .ok (d, s)
  | '\n' :: _ => .ok (d, s)
  | '#' :: _ => .ok (d, s)
  | '[' :: rest => do
    let (d, after) ← readHeader d rest
    return (d, skipSpace after)
  | _ => do
    let ((key, value), after) ← readPair (2 * s.length + 2) s
    let d ← orMalformed (d.assign key value)
    return (d, skipSpace after)

/-- All lines of a document. -/
def readLines : Nat → Draft → Text → Except Error Draft
  | 0, d, _ => .ok d
  | fuel + 1, d, s => do
    let (d, after) ← readStatement d (skipSpace s)
    match ← skipComment after with
    | [] => return d
    | '\n' :: rest => readLines fuel d rest
    | _ => .error .malformed

/-- A text whose carriage returns before line feeds are dropped. -/
def unifyLineEnds : Text → Text
  | '\r' :: '\n' :: rest => '\n' :: unifyLineEnds rest
  | c :: rest => c :: unifyLineEnds rest
  | [] => []

/-- The entries of the table that a document stands for. -/
def read (s : Text) : Except Error Entries :=
  let source := unifyLineEnds s
  (readLines (source.length + 1) {} source).map Draft.root

end Toml

end SandboxProfile
