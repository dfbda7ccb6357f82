import SandboxProfile.Decimal.Shortest
import SandboxProfile.Text.Integer
import SandboxProfile.Text.Quoted
import SandboxProfile.Value.Basic

/-!
# Values in messages

A message that refuses a value shows it as a literal, from which its type can be seen: texts
are quoted, lists stand in brackets and tables in braces, and days and times name their
type. An integer of more than `Text.digitLimit` digits is too long to be shown.

## Main definitions

* `Value.literal?` writes a value, unless an integer in it is too long.
-/

namespace SandboxProfile

/-- Arguments between parentheses. -/
def inParens (name : String) (arguments : List Text) : Text :=
  name.toList ++ '(' :: Text.joined [',', ' '] arguments ++ [')']

/-- A distance in time that is not zero, in days and seconds of which the seconds are not
negative; a part that is zero is left out. -/
def distanceLiteral (minutes : Int) : Text :=
  let seconds := minutes * 60
  let days := seconds.fdiv 86400
  let rest := seconds.fmod 86400
  let named (name : String) (n : Int) : List Text :=
    if n = 0 then [] else [name.toList ++ '=' :: Text.ofInt n]
  inParens "datetime.timedelta" (named "days" days ++ named "seconds" rest)

/-- A time zone; universal time has a name. -/
def zoneLiteral (minutes : Int) : Text :=
  if minutes = 0 then "datetime.timezone.utc".toList
  else inParens "datetime.timezone" [distanceLiteral minutes]

/-- A day as arguments. -/
def Date.arguments (d : Date) : List Text :=
  [Text.ofNat d.year, Text.ofNat d.month, Text.ofNat d.day]

/-- A time of day as arguments. Seconds are left out where nothing but zeros follows. -/
def TimeOfDay.arguments (t : TimeOfDay) : List Text :=
  let seconds :=
    if t.micro ≠ 0 then [Text.ofNat t.second, Text.ofNat t.micro]
    else if t.second ≠ 0 then [Text.ofNat t.second]
    else []
  Text.ofNat t.hour :: Text.ofNat t.minute :: seconds

/-- A moment as arguments. -/
def Moment.arguments (m : Moment) : List Text :=
  m.date.arguments ++ m.time.arguments ++
    match m.zone with
    | some minutes => ["tzinfo=".toList ++ zoneLiteral minutes]
    | none => []

namespace Value

mutual

/-- A value as a literal, unless an integer in it is too long. -/
def literal? : Value → Option Text
  | .null => some "None".toList
  | .bool true => some "True".toList
  | .bool false => some "False".toList
  | .int i =>
    let digits := Text.ofNat i.natAbs
    if digits.length ≤ Text.digitLimit then some (Text.ofInt i) else none
  | .float x => some x.text
  | .text s => some (Text.quoted s)
  | .bytes b => some (Text.quotedBytes b)
  | .date d => some (inParens "datetime.date" d.arguments)
  | .time t => some (inParens "datetime.time" t.arguments)
  | .moment m => some (inParens "datetime.datetime" m.arguments)
  | .list elements =>
    (literals? elements).map fun ts => '[' :: Text.joined [',', ' '] ts ++ [']']
  | .pair a b =>
    match literal? a, literal? b with
    | some s, some t => some ('(' :: s ++ [',', ' '] ++ t ++ [')'])
    | _, _ => none
  | .set elements =>
    if elements.isEmpty then some "set()".toList
    else (literals? elements).map fun ts => '\x7b' :: Text.joined [',', ' '] ts ++ ['\x7d']
  | .table entries =>
    (entryLiterals? entries).map fun ts => '\x7b' :: Text.joined [',', ' '] ts ++ ['\x7d']
  | .again isTable => some (if isTable then ['\x7b', '.', '.', '.', '\x7d'] else "[...]".toList)

/-- Several values as literals. -/
def literals? : List Value → Option (List Text)
  | [] => some []
  | v :: rest =>
    match literal? v, literals? rest with
    | some t, some ts => some (t :: ts)
    | _, _ => none

/-- The entries of a table as literals. -/
def entryLiterals? : List (Value × Value) → Option (List Text)
  | [] => some []
  | (k, v) :: rest =>
    match literal? k, literal? v, entryLiterals? rest with
    | some s, some t, some ts => some ((s ++ [':', ' '] ++ t) :: ts)
    | _, _, _ => none

end

end Value

end SandboxProfile
