import SandboxProfile.Json.Basic

/-!
# Reading JSON

The reader accepts JSON whose numbers are integers. Strings are first read as code units,
since an escape names a UTF-16 unit and a character beyond U+FFFF takes two of them; the
units are then put together, and a lone surrogate makes the text unreadable.

## Main definitions

* `Json.joinUnits?` makes a text of code units.
* `Json.read?` reads a whole text as one value.
-/

namespace SandboxProfile

namespace Json

/-- The text that UTF-16 units and code points stand for. A high surrogate takes the low
surrogate that must follow it. -/
def joinUnits? : List Nat → Option Text
  | [] => some []
  | n :: rest =>
    if 0xd800 ≤ n ∧ n ≤ 0xdbff then
      match rest with
      | m :: after =>
        if 0xdc00 ≤ m ∧ m ≤ 0xdfff then
          (joinUnits? after).map
            (Char.ofNat (0x10000 + (n - 0xd800) * 0x400 + (m - 0xdc00)) :: ·)
        else none
      | [] => none
    else
      match Text.char? n, joinUnits? rest with
      | some c, some s => some (c :: s)
      | _, _ => none

/-- The code unit that a one-letter escape stands for. -/
def letterEscape? : Char → Option Nat
  | '"' => some 0x22
  | '\\' => some 0x5c
  | '/' => some 0x2f
  | 'b' => some 0x08
  | 'f' => some 0x0c
  | 'n' => some 0x0a
  | 'r' => some 0x0d
  | 't' => some 0x09
  | _ => none

/-- The number that four hexadecimal digits stand for. -/
def unit? (a b c d : Char) : Option Nat := do
  return Text.ofDigits 16
    [← Text.hexDigit? a, ← Text.hexDigit? b, ← Text.hexDigit? c, ← Text.hexDigit? d]

/-- The code units up to the closing quote, and what follows it. -/
def readUnits? : Text → Option (List Nat × Text)
  | [] => none
  | '"' :: rest => some ([], rest)
  | '\\' :: 'u' :: a :: b :: c :: d :: rest =>
    match unit? a b c d, readUnits? rest with
    | some n, some (units, after) => some (n :: units, after)
    | _, _ => none
  | '\\' :: c :: rest =>
    match letterEscape? c, readUnits? rest with
    | some n, some (units, after) => some (n :: units, after)
    | _, _ => none
  | c :: rest =>
    if c = '\\' ∨ c.toNat < 0x20 then none
    else (readUnits? rest).map fun (units, after) => (c.toNat :: units, after)

/-- The string after its opening quote, and what follows it. -/
def readString? (s : Text) : Option (Text × Text) := do
  let (units, after) ← readUnits? s
  return (← joinUnits? units, after)

/-- Is the character a blank of JSON? -/
def isSpace (c : Char) : Bool :=
  c = ' ' || c = '\n' || c = '\r' || c = '\t'

/-- A text without the blanks of JSON at its start. -/
def skipSpace (s : Text) : Text :=
  s.dropWhile isSpace

/-- The natural number at the start of a text, and what follows it. A number of more than one
digit does not start with a zero. -/
def readNat? (s : Text) : Option (Nat × Text) :=
  match s.takeWhile Char.isDigit with
  | [] => none
  | '0' :: _ :: _ => none
  | digits =>
    some (Text.ofDigits 10 (digits.map fun c => c.toNat - '0'.toNat), s.dropWhile Char.isDigit)

mutual

/-- The value at the start of a text, and what follows it. The number bounds the depth of the
recursion. -/
def readValue? : Nat → Text → Option (Json × Text)
  | 0, _ => none
  | fuel + 1, s =>
    match skipSpace s with
    | 'n' :: 'u' :: 'l' :: 'l' :: rest => some (.null, rest)
    | 't' :: 'r' :: 'u' :: 'e' :: rest => some (.bool true, rest)
    | 'f' :: 'a' :: 'l' :: 's' :: 'e' :: rest => some (.bool false, rest)
    | '"' :: rest => (readString? rest).map fun (t, after) => (.str t, after)
    | '[' :: rest =>
      match skipSpace rest with
      | ']' :: after => some (.arr [], after)
      | _ => (readElements? fuel rest).map fun (es, after) => (.arr es, after)
    | '\x7b' :: rest =>
      match skipSpace rest with
      | '\x7d' :: after => some (.obj [], after)
      | _ => (readMembers? fuel rest).map fun (ms, after) => (.obj ms, after)
    | '-' :: rest => (readNat? rest).map fun (n, after) => (.int (-(n : Int)), after)
    | rest => (readNat? rest).map fun (n, after) => (.int n, after)

/-- The elements of an array up to its end. -/
def readElements? : Nat → Text → Option (List Json × Text)
  | 0, _ => none
  | fuel + 1, s =>
    match readValue? fuel s with
    | none => none
    | some (e, after) =>
      match skipSpace after with
      | ']' :: rest => some ([e], rest)
      | ',' :: rest => (readElements? fuel rest).map fun (es, last) => (e :: es, last)
      | _ => none

/-- The members of an object up to its end. -/
def readMembers? : Nat → Text → Option (List (Text × Json) × Text)
  | 0, _ => none
  | fuel + 1, s =>
    match skipSpace s with
    | '"' :: rest =>
      match readString? rest with
      | none => none
      | some (name, afterName) =>
        match skipSpace afterName with
        | ':' :: afterColon =>
          match readValue? fuel afterColon with
          | none => none
          | some (v, after) =>
            match skipSpace after with
            | '\x7d' :: last => some ([(name, v)], last)
            | ',' :: more => (readMembers? fuel more).map fun (ms, last) => ((name, v) :: ms, last)
            | _ => none
        | _ => none
    | _ => none

end

/-- The value that a whole text stands for. Every level of the recursion consumes a
character, so the length of the text bounds its depth. -/
def read? (s : Text) : Option Json :=
  match readValue? (2 * s.length + 2) s with
  | some (v, rest) => if skipSpace rest = [] then some v else none
  | none => none

end Json

end SandboxProfile
