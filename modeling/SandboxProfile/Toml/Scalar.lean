import SandboxProfile.Text.Integer
import SandboxProfile.Value.Basic

/-!
# Scalars of TOML

Keys, strings, numbers, days and times at the start of a text. Each reader returns what it
read together with the text after it. A document is read with its line ends already made
line feeds, so a carriage return is a control character like any other.

## Main definitions

* `Toml.Error` is why a document cannot be read.
* `Toml.readString?` reads a string in any of the four notations.
* `Toml.readNumber?` reads an integer or a floating point number.
* `Toml.readCalendar?` reads a day, a time or a moment.
-/

namespace SandboxProfile

namespace Toml

/-- Why a document cannot be read. -/
inductive Error where
  /-- It does not follow the grammar, or it says something twice. -/
  | malformed
  /-- An integer has too many decimal digits. -/
  | tooManyDigits (count : Nat)
  deriving DecidableEq, Repr

/-! ### Characters -/

/-- The blanks inside a line. -/
def isSpace (c : Char) : Bool :=
  c = ' ' || c = '\t'

/-- A character that no string and no comment may hold unless it is escaped. -/
def isControl (c : Char) : Bool :=
  (c.toNat < 0x20 && c ≠ '\t') || c = '\x7f'

/-- A character that a key may hold without quotes. -/
def isBareKey (c : Char) : Bool :=
  c.isAlphanum || c = '-' || c = '_'

/-- A text without the blanks at its start. -/
def skipSpace (s : Text) : Text :=
  s.dropWhile isSpace

/-! ### Strings -/

/-- The character that an escape by one letter stands for. -/
def letterEscape? : Char → Option Char
  | 'b' => some '\x08'
  | 't' => some '\t'
  | 'n' => some '\n'
  | 'f' => some '\x0c'
  | 'r' => some '\r'
  | '"' => some '"'
  | '\\' => some '\\'
  | _ => none

/-- The character whose code point hexadecimal digits give. -/
def hexChar? (digits : Text) : Option Char := do
  Text.char? (Text.ofDigits 16 (← digits.mapM Text.hexDigit?))

/-- Put a character in front of what was read. -/
def consRead (c : Option Char) (read : Option (Text × Text)) : Option (Text × Text) :=
  match c, read with
  | some c, some (s, after) => some (c :: s, after)
  | _, _ => none

/-- A string between quotes, after the opening one. -/
def readQuoted? : Text → Option (Text × Text)
  | [] => none
  | '"' :: rest => some ([], rest)
  | '\\' :: 'u' :: a :: b :: c :: d :: rest => consRead (hexChar? [a, b, c, d]) (readQuoted? rest)
  | '\\' :: 'U' :: a :: b :: c :: d :: e :: f :: g :: h :: rest =>
    consRead (hexChar? [a, b, c, d, e, f, g, h]) (readQuoted? rest)
  | '\\' :: c :: rest => consRead (letterEscape? c) (readQuoted? rest)
  | c :: rest => if isControl c || c = '\\' then none else consRead (some c) (readQuoted? rest)

/-- A string between apostrophes, after the opening one. It has no escapes. -/
def readLiteral? : Text → Option (Text × Text)
  | [] => none
  | '\'' :: rest => some ([], rest)
  | c :: rest => if isControl c then none else consRead (some c) (readLiteral? rest)

/-- What remains to be skipped after a backslash at the end of a line. -/
inductive Skipping where
  /-- Nothing. -/
  | none
  /-- Blanks up to the end of the line. -/
  | line
  /-- Blanks and line feeds up to the next character. -/
  | all
  deriving DecidableEq, Repr

/-- The quotes that follow three closing ones belong to the string, if they are at most
two. -/
def closingQuotes (quote : Char) : Text → Text × Text
  | a :: b :: rest =>
    if a = quote then if b = quote then ([quote, quote], rest) else ([quote], b :: rest)
    else ([], a :: b :: rest)
  | [a] => if a = quote then ([quote], []) else ([], [a])
  | [] => ([], [])

/-- A character that a string of several lines may not hold. -/
def isControlInLines (c : Char) : Bool :=
  isControl c && c ≠ '\n'

/-- A string between three quotes, after the opening ones. -/
def readQuotedLines? : Skipping → Text → Option (Text × Text)
  | _, [] => none
  | .line, c :: rest =>
    if isSpace c then readQuotedLines? .line rest
    else if c = '\n' then readQuotedLines? .all rest
    else none
  | skipping, c :: rest =>
    if skipping = .all ∧ (isSpace c ∨ c = '\n') then readQuotedLines? .all rest
    else if c = '"' then
      match rest with
      | '"' :: '"' :: after => some (closingQuotes '"' after)
      | _ => consRead (some '"') (readQuotedLines? .none rest)
    else if c = '\\' then
      match rest with
      | 'u' :: a :: b :: c :: d :: after =>
        consRead (hexChar? [a, b, c, d]) (readQuotedLines? .none after)
      | 'U' :: a :: b :: c :: d :: e :: f :: g :: h :: after =>
        consRead (hexChar? [a, b, c, d, e, f, g, h]) (readQuotedLines? .none after)
      | '\n' :: after => readQuotedLines? .all after
      | ' ' :: after => readQuotedLines? .line after
      | '\t' :: after => readQuotedLines? .line after
      | e :: after => consRead (letterEscape? e) (readQuotedLines? .none after)
      | [] => none
    else if isControlInLines c then none
    else consRead (some c) (readQuotedLines? .none rest)

/-- A string between three apostrophes, after the opening ones. -/
def readLiteralLines? : Text → Option (Text × Text)
  | [] => none
  | '\'' :: '\'' :: '\'' :: after => some (closingQuotes '\'' after)
  | c :: rest => if isControlInLines c then none else consRead (some c) (readLiteralLines? rest)

/-- A text without a line feed at its start. -/
def dropLineFeed : Text → Text
  | '\n' :: rest => rest
  | s => s

/-- A string in any of the four notations. -/
def readString? : Text → Option (Text × Text)
  | '"' :: '"' :: '"' :: rest => readQuotedLines? .none (dropLineFeed rest)
  | '\'' :: '\'' :: '\'' :: rest => readLiteralLines? (dropLineFeed rest)
  | '"' :: rest => readQuoted? rest
  | '\'' :: rest => readLiteral? rest
  | _ => none

/-! ### Numbers -/

/-- Digits that may follow a digit, each with at most one underscore before it. -/
def moreDigits (isDigit : Char → Bool) : Text → Text × Text
  | '_' :: c :: rest =>
    if isDigit c then
      let (digits, after) := moreDigits isDigit rest
      (c :: digits, after)
    else ([], '_' :: c :: rest)
  | c :: rest =>
    if isDigit c then
      let (digits, after) := moreDigits isDigit rest
      (c :: digits, after)
    else ([], c :: rest)
  | [] => ([], [])

/-- A digit and those that follow it. -/
def someDigits? (isDigit : Char → Bool) : Text → Option (Text × Text)
  | c :: rest =>
    if isDigit c then
      let (digits, after) := moreDigits isDigit rest
      some (c :: digits, after)
    else none
  | [] => none

/-- The number that digits of a base stand for. -/
def numberOf (base : Nat) (digits : Text) : Nat :=
  Text.ofDigits base (digits.filterMap Text.hexDigit?)

/-- An integer in base sixteen, eight or two. -/
def readBased? : Text → Option (Value × Text)
  | '0' :: 'x' :: rest => based 16 (fun c => (Text.hexDigit? c).isSome) rest
  | '0' :: 'o' :: rest => based 8 (fun c => '0' ≤ c && c ≤ '7') rest
  | '0' :: 'b' :: rest => based 2 (fun c => c = '0' || c = '1') rest
  | _ => none
where
  /-- The digits after the letter of the base. -/
  based (base : Nat) (isDigit : Char → Bool) (s : Text) : Option (Value × Text) :=
    (someDigits? isDigit s).map fun (digits, after) => (.int (numberOf base digits), after)

/-- The whole part of a decimal number. It does not start with a zero, unless that is all. -/
def readWhole? : Text → Option (Text × Text)
  | '0' :: rest => some (['0'], rest)
  | s => someDigits? Char.isDigit s

/-- The digits after a point. -/
def readFraction : Text → Text × Text
  | '.' :: rest =>
    match someDigits? Char.isDigit rest with
    | some read => read
    | none => ([], '.' :: rest)
  | s => ([], s)

/-- The exponent of ten, if there is one. -/
def readExponent (s : Text) : Option Int × Text :=
  match s with
  | c :: rest =>
    if c = 'e' ∨ c = 'E' then
      let (negative, body) := Text.cutSign rest
      match someDigits? Char.isDigit body with
      | some (digits, after) => (some (Text.signed negative (numberOf 10 digits)), after)
      | none => (none, s)
    else (none, s)
  | [] => (none, s)

/-- A decimal integer or floating point number with an optional sign. An integer with too many
digits is an error. -/
def readDecimal? (s : Text) : Option (Except Error Value × Text) := do
  let (negative, body) := Text.cutSign s
  let (whole, afterWhole) ← readWhole? body
  let (fraction, afterFraction) := readFraction afterWhole
  let (exponent, after) := readExponent afterFraction
  if fraction = [] ∧ exponent = none then
    if whole.length ≤ Text.digitLimit then
      return (.ok (.int (Text.signed negative (numberOf 10 whole))), after)
    else return (.error (.tooManyDigits whole.length), after)
  else
    let digits := numberOf 10 (whole ++ fraction)
    let power := exponent.getD 0 - fraction.length
    return (.ok (.float (Binary64.ofDecimal negative digits power)), after)

/-- An infinity, or the value that is not a number, with an optional sign. -/
def readSpecial? (s : Text) : Option (Value × Text) :=
  let (negative, body) := Text.cutSign s
  match body with
  | 'i' :: 'n' :: 'f' :: rest => some (.float (.infinite negative), rest)
  | 'n' :: 'a' :: 'n' :: rest => some (.float .nan, rest)
  | _ => none

/-- A number of any kind. -/
def readNumber? (s : Text) : Option (Except Error Value × Text) :=
  match readBased? s with
  | some (v, after) => some (.ok v, after)
  | none =>
    match readDecimal? s with
    | some read => some read
    | none => (readSpecial? s).map fun (v, after) => (.ok v, after)

/-! ### Days and times -/

/-- A number of two digits between two bounds. -/
def twoDigits? (low high : Nat) (a b : Char) : Option Nat :=
  if a.isDigit && b.isDigit then
    let n := numberOf 10 [a, b]
    if low ≤ n ∧ n ≤ high then some n else none
  else none

/-- The fraction of a second at the start of a text, in millionth parts; further digits are
dropped. -/
def readMicros : Text → Nat × Text
  | '.' :: rest =>
    match rest.takeWhile Char.isDigit with
    | [] => (0, '.' :: rest)
    | digits =>
      let six := (digits ++ List.replicate 6 '0').take 6
      (numberOf 10 six, rest.dropWhile Char.isDigit)
  | s => (0, s)

/-- A time of day. -/
def readTime? : Text → Option (TimeOfDay × Text)
  | a :: b :: ':' :: c :: d :: ':' :: e :: f :: rest => do
    let hour ← twoDigits? 0 23 a b
    let minute ← twoDigits? 0 59 c d
    let second ← twoDigits? 0 59 e f
    let (micro, after) := readMicros rest
    return (⟨hour, minute, second, micro⟩, after)
  | _ => none

/-- The zone after a time, if there is one. -/
def readZone (s : Text) : Option Int × Text :=
  match s with
  | 'Z' :: rest => (some 0, rest)
  | 'z' :: rest => (some 0, rest)
  | sign :: a :: b :: ':' :: c :: d :: rest =>
    if sign = '+' ∨ sign = '-' then
      match twoDigits? 0 23 a b, twoDigits? 0 59 c d with
      | some h, some m => (some (Text.signed (sign = '-') (h * 60 + m)), rest)
      | _, _ => (none, s)
    else (none, s)
  | _ => (none, s)

/-- A day, whose month and day are in bounds without regard to each other. -/
def readDate? : Text → Option (Date × Text)
  | y₁ :: y₂ :: y₃ :: y₄ :: '-' :: a :: b :: '-' :: c :: d :: rest => do
    let century ← twoDigits? 0 99 y₁ y₂
    let year ← twoDigits? 0 99 y₃ y₄
    let month ← twoDigits? 1 12 a b
    let day ← twoDigits? 1 31 c d
    return (⟨century * 100 + year, month, day⟩, rest)
  | _ => none

/-- The time and zone that make a day a moment, after the letter or space between them. -/
def readMomentTime? : Text → Option (TimeOfDay × Option Int × Text)
  | c :: rest =>
    if c = 'T' ∨ c = 't' ∨ c = ' ' then do
      let (t, afterTime) ← readTime? rest
      let (zone, after) := readZone afterTime
      return (t, zone, after)
    else none
  | [] => none

/-- A day, a time or a moment. A day that does not exist is an error. -/
def readCalendar? (s : Text) : Option (Except Error Value × Text) :=
  match readDate? s with
  | some (d, afterDate) =>
    let read : Value × Text :=
      match readMomentTime? afterDate with
      | some (t, zone, after) => (.moment ⟨d, t, zone⟩, after)
      | none => (.date d, afterDate)
    some (if d.isValid then .ok read.1 else .error .malformed, read.2)
  | none => (readTime? s).map fun (t, after) => (.ok (.time t), after)

end Toml

end SandboxProfile
