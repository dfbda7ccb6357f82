import SandboxProfile.Text.Blank
import SandboxProfile.Text.DecimalDigit

/-!
# Reading integers

Options and environment variables hold integers in a generous form: blanks around the
number, a sign, decimal digits of any script, and single underscores between digits. A
number of more than `Text.digitLimit` digits is refused.

## Main definitions

* `Text.readDigits?` reads digits with single underscores between them.
* `Text.readInteger?` reads a whole integer.
* `Text.signedDigits?` reads an integer of another base up to its value.
-/

namespace SandboxProfile

namespace Text

/-- The most digits that a decimal integer may have. -/
def digitLimit : Nat := 4300

/-- Digits of a base with single underscores between them, most significant first. The flag
says whether an underscore may come next, which is so exactly after a digit; neither the
first nor the last character is an underscore, and there is at least one digit. -/
def readDigits? (digit? : Char → Option Nat) : Bool → Text → Option (List Nat)
  | afterDigit, [] => if afterDigit then some [] else none
  | true, '_' :: rest => readDigits? digit? false rest
  | _, c :: rest =>
    match digit? c with
    | some d => (readDigits? digit? true rest).map (d :: ·)
    | none => none

/-- The ASCII blanks that may surround a number; a blank outside ASCII may do so as well, but
the four information separators may not. -/
def isNumberBlank (c : Char) : Bool :=
  if c.toNat < 0x80 then c = ' ' || (0x09 ≤ c.toNat && c.toNat ≤ 0x0d) else isBlank c

/-- A number without the blanks around it. -/
def trimNumber (s : Text) : Text :=
  dropEndWhile isNumberBlank (s.dropWhile isNumberBlank)

/-- Cut the sign off a number; the flag tells a minus sign. -/
def cutSign : Text → Bool × Text
  | '-' :: rest => (true, rest)
  | '+' :: rest => (false, rest)
  | s => (false, s)

/-- The integer with the given sign and size. -/
def signed (negative : Bool) (n : Nat) : Int :=
  if negative then -(n : Int) else n

/-- An integer in the generous form, if the text is one. -/
def readInteger? (s : Text) : Option Int :=
  let (negative, body) := cutSign (trimNumber s)
  match readDigits? decimalDigit? false body with
  | some digits =>
    if digits.length ≤ digitLimit then some (signed negative (ofDigits 10 digits)) else none
  | none => none

/-- The value of a digit below `base`; the letters of ASCII are digits above nine. -/
def digitBelow? (base : Nat) (c : Char) : Option Nat :=
  match (decimalDigit? c).or (hexDigit? c) with
  | some d => if d < base then some d else none
  | none => none

/-- The letter that may announce digits of a base after a zero. -/
def baseLetter? (base : Nat) : Option Char :=
  match base with
  | 2 => some 'b'
  | 8 => some 'o'
  | 16 => some 'x'
  | _ => none

/-- A text without the zero and the letter that announce digits of a base. -/
def dropBaseLetter (base : Nat) (s : Text) : Text :=
  match s with
  | '0' :: c :: rest => if some c.toLower = baseLetter? base then rest else s
  | _ => s

/-- The sign and the digits of an integer of the given base in the generous form, in which the
base may be announced; `none` if the text is no such integer. -/
def signedDigits? (base : Nat) (s : Text) : Option (Bool × List Nat) :=
  let (negative, body) := cutSign (trimNumber s)
  (readDigits? (digitBelow? base) false (dropBaseLetter base body)).map fun ds => (negative, ds)

end Text

end SandboxProfile
