import SandboxProfile.Decimal.Binary64
import SandboxProfile.Text.Basic

/-!
# The shortest decimal that reads back

A binary number is written with the fewest decimal digits that, rounded to the format, give
the number again; of the decimals with that many digits it is the nearest. The numbers that
round to a given one form an interval, whose ends belong to it exactly when the mantissa is
even. For one digit, two digits and so on, the two multiples of the last place next to the
number are tried.

## Main definitions

* `Binary64.shortest` finds the digits and their exponent.
* `Binary64.text` writes a number.
-/

namespace SandboxProfile

namespace Binary64

/-- The numbers that round to a given one. All members are multiples of one unit, which is a
quarter of the last place of the mantissa times a power of ten where that is needed to
compare with decimals. -/
structure Interval where
  /-- The lower end. -/
  low : Nat
  /-- The number itself. -/
  value : Nat
  /-- The upper end. -/
  high : Nat
  /-- Do the ends belong to the interval? -/
  closed : Bool
  /-- The number of units that make one. -/
  one : Nat
  deriving DecidableEq, Repr

/-- The interval of the number `mantissa * 2 ^ exponent`. Below a power of two the numbers lie
twice as close. -/
def interval (mantissa : Nat) (exponent : Int) : Interval :=
  let low :=
    if mantissa = Nat.pow 2 52 ∧ exponent > minExponent then 4 * mantissa - 1
    else 4 * mantissa - 2
  let (scale, one) : Nat × Nat :=
    match exponent with
    | .ofNat e => (Nat.pow 2 e, 4)
    | .negSucc e => (1, 4 * Nat.pow 2 (e + 1))
  ⟨low * scale, 4 * mantissa * scale, (4 * mantissa + 2) * scale, mantissa % 2 = 0, one⟩

/-- The interval in units `10 ^ k` times as large. -/
def Interval.inUnits (i : Interval) (k : Int) : Interval :=
  match k with
  | .ofNat n => { i with one := i.one * Nat.pow 10 n }
  | .negSucc n =>
    let s := Nat.pow 10 (n + 1)
    { i with low := i.low * s, value := i.value * s, high := i.high * s }

/-- Does the multiple `n` of the unit lie in the interval? -/
def Interval.holds (i : Interval) (n : Nat) : Bool :=
  let x := n * i.one
  if i.closed then i.low ≤ x && x ≤ i.high else i.low < x && x < i.high

/-- The multiple of the unit that lies in the interval nearest to its number, if one of the two
neighbours does. Of two equally near ones the even one is taken. -/
def Interval.nearest? (i : Interval) : Option Nat :=
  let below := i.value / i.one
  let above := below + 1
  match i.holds below, i.holds above with
  | true, true => some (roundHalfEven i.value i.one)
  | true, false => some below
  | false, true => some above
  | false, false => none

/-- The greatest power of ten whose multiple does not exceed the quotient, starting from a
guess that is at most `fuel` too large. -/
def powerBelow (num den : Nat) : Nat → Int → Int
  | 0, k => k
  | fuel + 1, k =>
    let fits : Bool :=
      match k with
      | .ofNat n => den * Nat.pow 10 n ≤ num
      | .negSucc n => den ≤ num * Nat.pow 10 (n + 1)
    if fits then k else powerBelow num den fuel (k - 1)

/-- The first of `count` numbers of digits, from `used` on, with which a decimal reads back. -/
def searchDigits (i : Interval) (top : Int) : Nat → Nat → Nat × Int
  | used, 0 => (((i.inUnits (top - used)).value) / (i.inUnits (top - used)).one, top - used)
  | used, count + 1 =>
    match (i.inUnits (top - used)).nearest? with
    | some n => (n, top - used)
    | none => searchDigits i top (used + 1) count

/-- Digits and an exponent of ten: the shortest decimal that reads back as the positive number
`mantissa * 2 ^ exponent`. Seventeen digits always do. -/
def shortest (mantissa : Nat) (exponent : Int) : Nat × Int :=
  let i := interval mantissa exponent
  let guess : Int := ((i.value.log2 : Int) - i.one.log2 + 1) * 30103 / 100000 + 1
  let top := powerBelow i.value i.one 4 guess
  searchDigits i top 0 17

/-! ### Writing -/

/-- A text without the zeros at its end. -/
def dropZeros (s : Text) : Text :=
  Text.dropEndWhile (· = '0') s

/-- The exponent of a number in scientific notation: a sign and at least two digits. -/
def exponentText (e : Int) : Text :=
  (if e < 0 then '-' else '+') :: Text.ofNatPadded 2 e.natAbs

/-- Digits with the point after the first `point` of them. From a ten-thousandth on and below
`10 ^ 16` a number is written positionally, with at least one digit after the point;
otherwise in scientific notation. -/
def layOut (digits : Text) (point : Int) : Text :=
  let n : Int := digits.length
  if -4 < point ∧ point ≤ 16 then
    if point ≤ 0 then ['0', '.'] ++ List.replicate (-point).toNat '0' ++ digits
    else if n ≤ point then digits ++ List.replicate (point - n).toNat '0' ++ ['.', '0']
    else digits.take point.toNat ++ '.' :: digits.drop point.toNat
  else
    match digits with
    | [] => []
    | [d] => d :: 'e' :: exponentText (point - 1)
    | d :: rest => d :: '.' :: rest ++ 'e' :: exponentText (point - 1)

/-- The text of a number. -/
def text : Binary64 → Text
  | .nan => "nan".toList
  | .infinite negative => if negative then "-inf".toList else "inf".toList
  | .finite negative m e =>
    let sign := if negative then ['-'] else []
    if m = 0 then sign ++ "0.0".toList
    else
      let (digits, exponent) := shortest m e
      let written := Text.ofNat digits
      sign ++ layOut (dropZeros written) (written.length + exponent)

end Binary64

end SandboxProfile
