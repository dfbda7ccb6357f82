import SandboxProfile.Text.Utf8
import SandboxProfile.Value.Literal

/-!
# Faults

Most failures are reported: a command prints them and ends with an exit code. A *fault* is a
failure that nothing reports; it ends a run at once. Faults arise in files whose bytes are
not text and in values that data formats can spell but that do not exist.

## Main definitions

* `CalendarFault` is what can be wrong with a day, a time or a zone.
* `Fault` lists the faults, `Fault.message` words them.
* `Failure` is either a reported error or a fault.
-/

namespace SandboxProfile

/-- What can be wrong with a day, a time or a zone. -/
inductive CalendarFault where
  /-- Years run from 1 to 9999. -/
  | year (n : Nat)
  /-- Months run from 1 to 12. -/
  | month
  /-- The month has fewer days. -/
  | day
  /-- Hours run from 0 to 23. -/
  | hour
  /-- Minutes run from 0 to 59. -/
  | minute
  /-- Seconds run from 0 to 59. -/
  | second
  /-- A zone is less than a day ahead or behind. -/
  | zone (minutes : Int)
  deriving DecidableEq, Repr

/-- The wording of what is wrong. -/
def CalendarFault.message : CalendarFault → Text
  | .year n => "year ".toList ++ Text.ofNat n ++ " is out of range".toList
  | .month => "month must be in 1..12".toList
  | .day => "day is out of range for month".toList
  | .hour => "hour must be in 0..23".toList
  | .minute => "minute must be in 0..59".toList
  | .second => "second must be in 0..59".toList
  | .zone minutes =>
    ("offset must be a timedelta strictly between -timedelta(hours=24) and " ++
      "timedelta(hours=24), not ").toList ++ distanceLiteral minutes ++ ['.']

/-- What is wrong with a day, if it does not exist. -/
def Date.fault? (d : Date) : Option CalendarFault :=
  if d.year < 1 ∨ 9999 < d.year then some (.year d.year)
  else if d.month < 1 ∨ 12 < d.month then some .month
  else if d.day < 1 ∨ daysIn d.year d.month < d.day then some .day
  else none

/-- What is wrong with a time of day, if it does not exist. -/
def TimeOfDay.fault? (t : TimeOfDay) : Option CalendarFault :=
  if 23 < t.hour then some .hour
  else if 59 < t.minute then some .minute
  else if 59 < t.second then some .second
  else none

/-- The failures that nothing reports. -/
inductive Fault where
  /-- The bytes of a file are not text. -/
  | undecodable (f : Utf8.Fault)
  /-- A path holds a NUL. -/
  | nulInPath
  /-- A path is too long to ask what is at it. -/
  | pathTooLong
  /-- An integer has too many digits to be read. -/
  | tooManyDigits (count : Nat)
  /-- An integer has too many digits to be shown. -/
  | tooLongToShow
  /-- A text is no integer of the given base. -/
  | notInteger (base : Nat) (s : Text)
  /-- A text is no number. -/
  | notNumber (s : Text)
  /-- A number has no digits at all. -/
  | emptyNumber
  /-- A text is no truth value. -/
  | notTruth
  /-- A text is neither a day nor a moment. -/
  | notCalendar
  /-- A day, a time or a zone does not exist. -/
  | calendar (f : CalendarFault)
  /-- A code point is beyond the last one. -/
  | beyondUnicode
  /-- A code point or a number of blanks does not fit a machine word. -/
  | beyondWord
  /-- A file cannot be read at all. -/
  | denied
  /-- Tabs are to be used and have no width. -/
  | zeroTabWidth
  deriving DecidableEq, Repr

namespace Fault

/-- The advice at the end of messages about long integers. -/
def digitAdvice : String :=
  "use sys.set_int_max_str_digits() to increase the limit"

/-- The message about long integers up to its details. -/
def digitMessage : String :=
  "Exceeds the limit (4300 digits) for integer string conversion"

/-- The wording of a fault; some faults have none. -/
def message : Fault → Text
  | undecodable f => f.message
  | nulInPath => "embedded null byte".toList
  | tooManyDigits count =>
    digitMessage.toList ++ ": value has ".toList ++ Text.ofNat count ++ " digits; ".toList ++
      digitAdvice.toList
  | tooLongToShow => (digitMessage ++ "; " ++ digitAdvice).toList
  | notInteger base s =>
    "invalid literal for int() with base ".toList ++ Text.ofNat base ++ [':', ' '] ++ Text.quoted s
  | notNumber s => "could not convert string to float: ".toList ++ Text.quoted s
  | calendar f => f.message
  | beyondUnicode => "chr() arg not in range(0x110000)".toList
  | pathTooLong | emptyNumber | notTruth | notCalendar | beyondWord | denied | zeroTabWidth => []

end Fault

/-- A failure of a command: an error that it reports, or a fault. -/
inductive Failure (ε : Type) where
  /-- The command prints the error. -/
  | reported (e : ε)
  /-- The run ends at once. -/
  | fault (f : Fault)
  deriving DecidableEq, Repr

/-- The literal of a value. A value that is too long to be shown is a fault. -/
def Value.literal {ε : Type} (v : Value) : Except (Failure ε) Text :=
  match v.literal? with
  | some t => .ok t
  | none => .error (.fault .tooLongToShow)

end SandboxProfile
