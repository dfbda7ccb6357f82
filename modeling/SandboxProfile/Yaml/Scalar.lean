import SandboxProfile.Text.Base64
import SandboxProfile.Text.Integer
import SandboxProfile.Yaml.Tag
import SandboxProfile.Yaml.Token.Basic

/-!
# Values of scalars

The tag of a scalar says what its text is read as. A scalar whose tag was found from its
form can be read, but a tag may also be written before any text, and some forms are those
of values that do not exist, such as the thirtieth of February; both are faults.

## Main definitions

* `Yaml.integer`, `Yaml.number` and `Yaml.calendar` read texts as values.
* `Yaml.scalarValue` reads a text as its tag demands.
-/

namespace SandboxProfile

namespace Yaml

/-- The value does not exist. -/
def fault {α : Type} (f : Fault) : Except Error α :=
  .error (.fault f)

/-- A text without its underscores. -/
def withoutUnderscores (s : Text) : Text :=
  s.filter (· ≠ '_')

/-! ### Integers -/

/-- The integer that digits of a base stand for. Only in base ten is their number limited. -/
def integerIn (base : Nat) (s : Text) : Except Error Int :=
  match Text.signedDigits? base s with
  | none => fault (.notInteger base s)
  | some (negative, digits) =>
    if base = 10 ∧ Text.digitLimit < digits.length then fault (.tooManyDigits digits.length)
    else .ok (Text.signed negative (Text.ofDigits base digits))

/-- The integer that a text without sign stands for. -/
def unsignedInteger (s : Text) : Except Error Int :=
  match s with
  | [] => fault .emptyNumber
  | ['0'] => .ok 0
  | '0' :: 'b' :: digits => integerIn 2 digits
  | '0' :: 'x' :: digits => integerIn 16 digits
  | '0' :: _ => integerIn 8 s
  | _ => do
    let parts ← (Text.splitOn ':' s).mapM (integerIn 10)
    return parts.foldl (fun n part => n * 60 + part) 0

/-- The integer that a text stands for. -/
def integer (text : Text) : Except Error Int :=
  match withoutUnderscores text with
  | '-' :: s => do return -(← unsignedInteger s)
  | '+' :: s => unsignedInteger s
  | s => unsignedInteger s

/-! ### Floating point numbers -/

/-- The digits at the start of a text, of any script, and what follows them. -/
def cutDigits (s : Text) : List Nat × Text :=
  let isDigit (c : Char) : Bool := (decimalDigit? c).isSome
  ((s.takeWhile isDigit).filterMap decimalDigit?, s.dropWhile isDigit)

/-- The exponent of a decimal number, zero if there is none. -/
def exponent? (s : Text) : Option Int :=
  match s with
  | [] => some 0
  | 'e' :: rest =>
    let (negative, body) := Text.cutSign rest
    match cutDigits body with
    | (d :: ds, []) => some (Text.signed negative (Text.ofDigits 10 (d :: ds)))
    | _ => none
  | _ => none

/-- A decimal number without sign. -/
def decimal? (negative : Bool) (s : Text) : Option Binary64 := do
  let (whole, afterWhole) := cutDigits s
  let (fraction, last) :=
    match afterWhole with
    | '.' :: rest => cutDigits rest
    | _ => ([], afterWhole)
  if whole = [] ∧ fraction = [] then none
  let power := (← exponent? last) - fraction.length
  return Binary64.ofDecimal negative (Text.ofDigits 10 (whole ++ fraction)) power

/-- The number that a text in lower case stands for. -/
def decimalNumber (s : Text) : Except Error Binary64 :=
  let (negative, body) := Text.cutSign (Text.trimNumber s)
  if body = "inf".toList ∨ body = "infinity".toList then .ok (.infinite negative)
  else if body = "nan".toList then .ok .nan
  else
    match decimal? negative body with
    | some x => .ok x
    | none => fault (.notNumber s)

/-- The number of digits in base sixty, the last digit first; each digit counts `scale`. -/
def sixtiesSum (scale : Int) (sum : Binary64) : List Binary64 → Binary64
  | [] => sum
  | x :: rest => sixtiesSum (scale * 60) (sum.add (x.mul (Binary64.ofInt scale))) rest

/-- The number that a text without sign stands for. -/
def unsignedNumber (s : Text) : Except Error Binary64 :=
  if s = ".inf".toList then .ok (.infinite false)
  else if s = ".nan".toList then .ok .nan
  else do
    let parts ← (Text.splitOn ':' s).mapM decimalNumber
    match parts with
    | [x] => return x
    | _ => return sixtiesSum 1 (Binary64.zero false) parts.reverse

/-- The number that a text stands for. -/
def number (text : Text) : Except Error Binary64 :=
  match Text.lower (withoutUnderscores text) with
  | [] => fault .emptyNumber
  | '-' :: s => do return (← unsignedNumber s).neg
  | '+' :: s => unsignedNumber s
  | s => unsignedNumber s

/-! ### Days and moments -/

/-- The number that ASCII digits stand for. -/
def asciiNumber (digits : Text) : Nat :=
  Text.ofDigits 10 (digits.map fun d => d.toNat - '0'.toNat)

/-- The minutes by which the clock of a stamp is ahead of universal time. -/
def zoneMinutes (zone : Char × Text × Text) : Int :=
  let (sign, hours, minutes) := zone
  Text.signed (sign = '-') (asciiNumber hours * 60 + asciiNumber minutes)

/-- The day or the moment of a stamp. A wrong zone is found before a wrong day, and that before
a wrong time. -/
def stampValue (t : Tag.Stamp) : Except Error Value := do
  let date : Date := ⟨asciiNumber t.year, asciiNumber t.month, asciiNumber t.day⟩
  let micro := asciiNumber ((t.fraction ++ List.replicate 6 '0').take 6)
  let time : TimeOfDay := ⟨asciiNumber t.hour, asciiNumber t.minute, asciiNumber t.second, micro⟩
  let zone := t.zone.map zoneMinutes
  match zone with
  | some minutes =>
    if 24 * 60 ≤ minutes.natAbs then fault (.calendar (.zone minutes))
  | none => pure ()
  if let some f := date.fault? then fault (.calendar f)
  if t.hour = [] then return .date date
  if let some f := time.fault? then fault (.calendar f)
  return .moment ⟨date, time, zone⟩

/-- The day or the moment that a text stands for. -/
def calendar (text : Text) : Except Error Value :=
  match Tag.stamp? (Tag.withoutLastBreak text) with
  | some t => stampValue t
  | none => fault .notCalendar

/-! ### Scalars -/

/-- The truth value that a text stands for. -/
def truth (text : Text) : Except Error Bool :=
  match Tag.truthWords.find? fun entry => Text.lower text = entry.1.toList with
  | some entry => .ok entry.2
  | none => fault .notTruth

/-- The bytes that a text stands for. -/
def binary (text : Text) : Except Error (List UInt8) :=
  if text.all fun c => c.toNat < 0x80 then
    match Base64.decode? text with
    | some bytes => .ok bytes
    | none => .error .malformed
  else .error .malformed

/-- The value of a scalar. The tags of collections do not fit a scalar, and some tags have no
values at all. -/
def scalarValue (tag : Tag) (text : Text) : Except Error Value :=
  match tag with
  | .null => .ok .null
  | .bool => (truth text).map .bool
  | .int => (integer text).map .int
  | .float => (number text).map .float
  | .binary => (binary text).map .bytes
  | .timestamp => calendar text
  | .str => .ok (.text text)
  | .seq | .omap | .pairs | .map | .set | .merge | .value | .unknown => .error .malformed

end Yaml

end SandboxProfile
