import SandboxProfile.Text.Basic

/-!
# Bytes in base sixty-four

Four characters of six bits each stand for three bytes; padding fills the last group up to
four. The reader is lenient: characters outside of the alphabet are skipped, padding counts
only where it can end the text, and what follows it is ignored.

## Main definitions

* `Base64.decode?` reads bytes.
-/

namespace SandboxProfile

namespace Base64

/-- The six bits that a character stands for. -/
def bits? (c : Char) : Option Nat :=
  let n := c.toNat
  if 'A' ≤ c ∧ c ≤ 'Z' then some (n - 'A'.toNat)
  else if 'a' ≤ c ∧ c ≤ 'z' then some (n - 'a'.toNat + 26)
  else if c.isDigit then some (n - '0'.toNat + 52)
  else if c = '+' then some 62
  else if c = '/' then some 63
  else none

/-- The bytes of a group whose first characters have the given bits, and of all groups after
it. A text may end between groups, or where padding fills its group up. -/
def decodeFrom? (group : List Nat) (padding : Nat) : Text → Option (List UInt8)
  | [] => if group = [] then some [] else none
  | '=' :: rest =>
    match group with
    | [a, b] =>
      if padding = 0 then decodeFrom? group 1 rest else some [UInt8.ofNat (a * 4 + b / 16)]
    | [a, b, c] => some [UInt8.ofNat (a * 4 + b / 16), UInt8.ofNat (b * 16 + c / 4)]
    | _ => decodeFrom? group padding rest
  | d :: rest =>
    match bits? d, group with
    | none, _ => decodeFrom? group padding rest
    | some n, [a, b, c] =>
      (decodeFrom? [] 0 rest).map fun bytes =>
        UInt8.ofNat (a * 4 + b / 16) :: UInt8.ofNat (b * 16 + c / 4) ::
          UInt8.ofNat (c * 64 + n) :: bytes
    | some n, _ => decodeFrom? (group ++ [n]) 0 rest

/-- The bytes that a text stands for. -/
def decode? (s : Text) : Option (List UInt8) :=
  decodeFrom? [] 0 s

end Base64

end SandboxProfile
