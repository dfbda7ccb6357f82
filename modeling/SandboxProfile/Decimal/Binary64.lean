/-!
# Binary floating point numbers

The numbers of the 64-bit binary format, kept as exact integers: a mantissa below `2 ^ 53`
times a power of two. A number that is no such product is rounded to the nearest one, and
of two equally near ones to that with the even mantissa; above the greatest it becomes
infinite.

## Main definitions

* `Binary64` is the type of these numbers.
* `Binary64.ofRatio` rounds a quotient of natural numbers.
* `Binary64.ofDecimal` rounds a decimal number.
* `Binary64.add` and `Binary64.mul` compute exactly and round once.
-/

namespace SandboxProfile

/-- The integer nearest to `num / den`; of two equally near ones the even one. -/
def roundHalfEven (num den : Nat) : Nat :=
  let q := num / den
  let twice := 2 * (num % den)
  if twice < den then q
  else if twice = den ∧ q % 2 = 0 then q
  else q + 1

/-- A number of the 64-bit binary format. -/
inductive Binary64 where
  /-- Not a number. -/
  | nan
  /-- An infinity. -/
  | infinite (negative : Bool)
  /-- The number `mantissa * 2 ^ exponent`, with a sign that also zero has. -/
  | finite (negative : Bool) (mantissa : Nat) (exponent : Int)
  deriving DecidableEq, Repr

namespace Binary64

/-- The least exponent. -/
def minExponent : Int := -1074

/-- The greatest exponent. -/
def maxExponent : Int := 971

/-- Zero with a sign. -/
def zero (negative : Bool) : Binary64 :=
  .finite negative 0 minExponent

/-- Two natural numbers whose quotient is `num / den / 2 ^ exponent`. -/
def scaled (num den : Nat) (exponent : Int) : Nat × Nat :=
  match exponent with
  | .ofNat e => (num, den * Nat.pow 2 e)
  | .negSucc e => (num * Nat.pow 2 (e + 1), den)

/-- The exponent that gives a quotient of positive numbers a mantissa of 53 bits, unless that
would be below the least one. -/
def exponentFor (num den : Nat) : Int :=
  let guess : Int := (num.log2 : Int) - den.log2 - 52
  let (n, d) := scaled num den guess
  max minExponent (if n < d * Nat.pow 2 52 then guess - 1 else guess)

/-- The number nearest to `num / den`. -/
def ofRatio (negative : Bool) (num den : Nat) : Binary64 :=
  if num = 0 ∨ den = 0 then zero negative
  else
    let e := exponentFor num den
    let (n, d) := scaled num den e
    let m := roundHalfEven n d
    let (m, e) := if m = Nat.pow 2 53 then (Nat.pow 2 52, e + 1) else (m, e)
    if e > maxExponent then .infinite negative else .finite negative m e

/-- The number nearest to `digits * 10 ^ exponent`. Numbers far outside the format are decided
by their size alone. -/
def ofDecimal (negative : Bool) (digits : Nat) (exponent : Int) : Binary64 :=
  let size : Int := (Nat.toDigits 10 digits).length + exponent
  if digits = 0 ∨ size < -400 then zero negative
  else if size > 400 then .infinite negative
  else
    match exponent with
    | .ofNat e => ofRatio negative (digits * Nat.pow 10 e) 1
    | .negSucc e => ofRatio negative digits (Nat.pow 10 (e + 1))

/-- The number nearest to an integer. -/
def ofInt (i : Int) : Binary64 :=
  ofRatio (i < 0) i.natAbs 1

/-- A finite number as a quotient of an integer and a natural number. -/
def ratio? : Binary64 → Option (Int × Nat)
  | .finite negative m e =>
    let sign : Int := if negative then -1 else 1
    match e with
    | .ofNat k => some (sign * (m * Nat.pow 2 k : Nat), 1)
    | .negSucc k => some (sign * m, Nat.pow 2 (k + 1))
  | _ => none

/-- The number with the opposite sign. -/
def neg : Binary64 → Binary64
  | .nan => .nan
  | .infinite s => .infinite (!s)
  | .finite s m e => .finite (!s) m e

/-- The rounded sum of two finite numbers; anything else makes no number. -/
def add (a b : Binary64) : Binary64 :=
  match a.ratio?, b.ratio? with
  | some (n, d), some (m, e) =>
    let sum := n * e + m * d
    ofRatio (sum < 0) sum.natAbs (d * e)
  | _, _ => .nan

/-- The rounded product of two finite numbers; anything else makes no number. -/
def mul (a b : Binary64) : Binary64 :=
  match a.ratio?, b.ratio? with
  | some (n, d), some (m, e) => ofRatio (n * m < 0) (n * m).natAbs (d * e)
  | _, _ => .nan

/-- Is the number equal to this integer? -/
def equalsInt (a : Binary64) (i : Int) : Bool :=
  match a.ratio? with
  | some (n, d) => n = i * d
  | none => false

/-- Are two numbers equal? Zero equals zero of the other sign, and nothing equals what is not
a number. -/
def equals : Binary64 → Binary64 → Bool
  | .nan, _ => false
  | _, .nan => false
  | .finite s m e, .finite t n f => (m = 0 && n = 0) || (s = t && m = n && e = f)
  | .infinite s, .infinite t => s = t
  | _, _ => false

end Binary64

end SandboxProfile
