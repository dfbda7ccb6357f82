/-!
# Text

Profiles, keywords, paths and reports are all *texts*: finite lists of characters. Offsets
and columns count characters, so a position in a text is a position in the list, and the
laws of the library are laws of lists.

## Main definitions

* `Text.dropEndWhile` removes the longest suffix whose characters all satisfy a test.
* `Text.ofNat` and `Text.ofInt` write numbers in decimal.
* `Text.joined` puts a separator between the members of a list.
* `Text.splitOn` cuts a text at every occurrence of one character.
-/

namespace SandboxProfile

/-- A text is a list of characters. -/
abbrev Text := List Char

namespace Text

/-- Remove the longest suffix all of whose characters satisfy `p`. -/
def dropEndWhile (p : Char → Bool) : Text → Text
  | [] => []
  | c :: rest =>
    match dropEndWhile p rest with
    | [] => if p c then [] else [c]
    | d :: kept => c :: d :: kept

/-- The length of the longest suffix all of whose characters satisfy `p`. -/
def endLength (p : Char → Bool) (s : Text) : Nat :=
  s.length - (dropEndWhile p s).length

/-- A natural number in decimal. -/
def ofNat (n : Nat) : Text :=
  Nat.toDigits 10 n

/-- An integer in decimal, with a sign only below zero. -/
def ofInt : Int → Text
  | .ofNat n => ofNat n
  | .negSucc n => '-' :: ofNat (n + 1)

/-- A natural number in decimal, filled up with zeros on the left to `width` digits. -/
def ofNatPadded (width n : Nat) : Text :=
  let digits := ofNat n
  List.replicate (width - digits.length) '0' ++ digits

/-- A natural number in lower-case hexadecimal with exactly `width` digits, the higher ones
being dropped. -/
def hex (width n : Nat) : Text :=
  match width with
  | 0 => []
  | w + 1 => hex w (n / 16) ++ [Nat.digitChar (n % 16)]

/-- The members of a list with a separator between each two neighbours. -/
def joined (separator : Text) : List Text → Text
  | [] => []
  | [s] => s
  | s :: rest => s ++ separator ++ joined separator rest

/-- Cut a text at every occurrence of `c`, which is dropped; there is always one piece more
than there are occurrences. -/
def splitOn (c : Char) : Text → List Text
  | [] => [[]]
  | d :: rest =>
    if d = c then [] :: splitOn c rest
    else
      match splitOn c rest with
      | [] => [[d]]
      | piece :: pieces => (d :: piece) :: pieces

/-- Does `s` begin with `t`? -/
def startsWith (s t : Text) : Bool :=
  t.isPrefixOf s

/-- Every occurrence of `a` becomes `b`. -/
def replaced (a b : Char) (s : Text) : Text :=
  s.map fun c => if c = a then b else c

/-- The ASCII letters in lower case; every other character stays. -/
def lower (s : Text) : Text :=
  s.map Char.toLower

/-- The value of a hexadecimal digit of either case. -/
def hexDigit? (c : Char) : Option Nat :=
  if '0' ≤ c ∧ c ≤ '9' then some (c.toNat - '0'.toNat)
  else if 'a' ≤ c ∧ c ≤ 'f' then some (c.toNat - 'a'.toNat + 10)
  else if 'A' ≤ c ∧ c ≤ 'F' then some (c.toNat - 'A'.toNat + 10)
  else none

/-- The number that digits of the given base stand for, most significant digit first. -/
def ofDigits (base : Nat) (digits : List Nat) : Nat :=
  digits.foldl (fun n d => n * base + d) 0

/-- The character of a code point, unless the code point is a surrogate or too large. -/
def char? (n : Nat) : Option Char :=
  if h : n.isValidChar then some (Char.ofNatAux n h) else none

end Text

end SandboxProfile
