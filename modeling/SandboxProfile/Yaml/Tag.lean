import SandboxProfile.Text.Basic

/-!
# Tags

Every node of a document has a *tag*, its type. A document may write the tag; of a scalar
without quotes it is otherwise found from the form of its text: `12` is an integer and
`12:30` is one in base sixty, `no` is a truth value, and what has no special form is a text.

## Main definitions

* `Yaml.Tag` is the type of tags.
* `Tag.ofName` finds a tag by its name.
* `Tag.ofPlain` finds the tag of a scalar from its form.
-/

namespace SandboxProfile

namespace Yaml

/-- The type of a node. -/
inductive Tag where
  | null
  | bool
  | int
  | float
  | binary
  | timestamp
  | str
  | seq
  /-- A list of pairs whose first members are keys. -/
  | omap
  /-- A list of pairs. -/
  | pairs
  | map
  | set
  /-- The key whose value is merged into its table. -/
  | merge
  /-- The key whose value stands for its table. -/
  | value
  /-- Any other type. -/
  | unknown
  deriving DecidableEq, Repr

namespace Tag

/-- What the full names of tags begin with. -/
def namespaceName : Text :=
  "tag:yaml.org,2002:".toList

/-- The tags that have names. -/
def named : List (String × Tag) :=
  [("null", null), ("bool", bool), ("int", int), ("float", float), ("binary", binary),
    ("timestamp", timestamp), ("str", str), ("seq", seq), ("omap", omap), ("pairs", pairs),
    ("map", map), ("set", set), ("merge", merge), ("value", value)]

/-- The tag of a full name. -/
def ofName (name : Text) : Tag :=
  match named.find? fun entry => name = namespaceName ++ entry.1.toList with
  | some entry => entry.2
  | none => unknown

/-- Is a node of this type a list, a set or a table? -/
def isCollection : Tag → Bool
  | seq | omap | pairs | map | set => true
  | _ => false

/-! ### Truth values -/

/-- The words for truth values. -/
def truthWords : List (String × Bool) :=
  [("yes", true), ("no", false), ("true", true), ("false", false), ("on", true), ("off", false)]

/-- Is the text a word in lower case, in upper case, or with a capital? -/
def isWordInAnyCase (s : Text) (word : String) : Bool :=
  s = word.toList || s = word.capitalize.toList || s = word.toUpper.toList

/-! ### Numbers -/

/-- Can the character stand in a number after its first digit? -/
def isFigure (c : Char) : Bool :=
  c.isDigit || c = '_'

/-- A text without the sign at its start. -/
def unsigned (s : Text) : Text :=
  match s with
  | '+' :: rest => rest
  | '-' :: rest => rest
  | _ => s

/-- Is this nothing, or an exponent with a sign? -/
def isExponent : Text → Bool
  | [] => true
  | e :: sign :: digits =>
    (e = 'e' || e = 'E') && (sign = '+' || sign = '-') && !digits.isEmpty &&
      digits.all Char.isDigit
  | _ => false

/-- Does the text begin with a digit? -/
def startsWithDigit : Text → Bool
  | [] => false
  | c :: _ => c.isDigit

/-- Is this one of the later digits of a number in base sixty? -/
def isSixtieth : Text → Bool
  | [d] => d.isDigit
  | [t, d] => '0' ≤ t && t ≤ '5' && d.isDigit
  | _ => false

/-- Is this a number of at least two digits in base sixty? -/
def isSixties (s : Text) : Bool :=
  match Text.splitOn ':' s with
  | first :: second :: others =>
    startsWithDigit first && first.all isFigure && (second :: others).all isSixtieth
  | _ => false

/-- Is this a floating point number? One that begins with its point has no sign. -/
def isFloat (s : Text) : Bool :=
  let body := unsigned s
  let afterWhole := body.dropWhile isFigure
  let hasFraction :=
    match afterWhole with
    | '.' :: rest => isExponent (rest.dropWhile isFigure)
    | _ => false
  let isPointed :=
    match s with
    | '.' :: rest => startsWithDigit rest && isExponent (rest.dropWhile isFigure)
    | _ => false
  let inSixties :=
    match body.dropWhile (· ≠ '.') with
    | '.' :: rest => isSixties (body.takeWhile (· ≠ '.')) && rest.all isFigure
    | _ => false
  (startsWithDigit body && hasFraction) || isPointed || inSixties ||
    [".inf", ".Inf", ".INF"].any (body = ·.toList) || [".nan", ".NaN", ".NAN"].any (s = ·.toList)

/-- Is this a digit of base sixteen or an underscore? -/
def isHexFigure (c : Char) : Bool :=
  (Text.hexDigit? c).isSome || c = '_'

/-- Is this an integer, in base two, eight, ten, sixteen or sixty? -/
def isInt (s : Text) : Bool :=
  match unsigned s with
  | ['0'] => true
  | '0' :: 'b' :: rest => !rest.isEmpty && rest.all fun c => c = '0' || c = '1' || c = '_'
  | '0' :: 'x' :: rest => !rest.isEmpty && rest.all isHexFigure
  | '0' :: rest => rest.all fun c => ('0' ≤ c && c ≤ '7') || c = '_'
  | body => (startsWithDigit body && body.all isFigure) || isSixties body

/-! ### Days and moments -/

/-- The parts of a moment as they are written; of a day, all but the first three are empty. -/
structure Stamp where
  year : Text
  month : Text
  day : Text
  hour : Text := []
  minute : Text := []
  second : Text := []
  /-- The digits of the fraction of a second. -/
  fraction : Text := []
  /-- The distance of the clock from universal time: a sign or the letter of universal time,
  the hours and the minutes. -/
  zone : Option (Char × Text × Text) := none

/-- One digit or two. -/
def cutShort? (s : Text) : Option (Text × Text) :=
  match (s.take 2).takeWhile Char.isDigit with
  | [] => none
  | digits => some (digits, s.drop digits.length)

/-- Exactly `n` digits. -/
def cutDigits? (n : Nat) (s : Text) : Option (Text × Text) :=
  let digits := (s.take n).takeWhile Char.isDigit
  if digits.length = n then some (digits, s.drop n) else none

/-- A text without the character at its start. -/
def cutChar? (c : Char) : Text → Option Text
  | [] => none
  | d :: rest => if d = c then some rest else none

/-- The distance from universal time at the end of a moment, if there is one. -/
def cutZone? (s : Text) : Option (Option (Char × Text × Text)) :=
  if s = [] then some none
  else
    match s.dropWhile fun c => c = ' ' || c = '\t' with
    | ['Z'] => some (some ('Z', [], []))
    | sign :: rest => do
      if sign ≠ '+' ∧ sign ≠ '-' then none
      let (hours, after) ← cutShort? rest
      if after = [] then return some (sign, hours, [])
      let (minutes, last) ← cutDigits? 2 (← cutChar? ':' after)
      if last = [] then return some (sign, hours, minutes) else none
    | [] => none

/-- The text after what separates a day from a time. -/
def cutSeparator? (s : Text) : Option Text :=
  match s with
  | 'T' :: rest => some rest
  | 't' :: rest => some rest
  | _ =>
    let rest := s.dropWhile fun c => c = ' ' || c = '\t'
    if rest.length < s.length then some rest else none

/-- The parts of a day or a moment. -/
def stamp? (s : Text) : Option Stamp := do
  let (year, afterYear) ← cutDigits? 4 s
  let (month, afterMonth) ← cutShort? (← cutChar? '-' afterYear)
  let (day, afterDay) ← cutShort? (← cutChar? '-' afterMonth)
  if afterDay = [] then return ⟨year, month, day, [], [], [], [], none⟩
  let (hour, afterHour) ← cutShort? (← cutSeparator? afterDay)
  let (minute, afterMinute) ← cutDigits? 2 (← cutChar? ':' afterHour)
  let (second, afterSecond) ← cutDigits? 2 (← cutChar? ':' afterMinute)
  let (fraction, last) :=
    match cutChar? '.' afterSecond with
    | some rest => (rest.takeWhile Char.isDigit, rest.dropWhile Char.isDigit)
    | none => ([], afterSecond)
  return ⟨year, month, day, hour, minute, second, fraction, ← cutZone? last⟩

/-- Is this a day or a moment? In a day, month and day of the month have two digits. -/
def isTimestamp (s : Text) : Bool :=
  match stamp? s with
  | some t => t.hour ≠ [] || (t.month.length = 2 && t.day.length = 2)
  | none => false

/-! ### Plain scalars -/

/-- A text without a line feed at its end, unless that is all. -/
def withoutLastBreak (s : Text) : Text :=
  if s.getLast? = some '\n' ∧ 1 < s.length then s.dropLast else s

/-- The tag of a scalar whose tag is not written, from its form. -/
def ofPlain (text : Text) : Tag :=
  let s := withoutLastBreak text
  if truthWords.any fun entry => isWordInAnyCase s entry.1 then bool
  else if isFloat s then float
  else if isInt s then int
  else if s = "<<".toList then merge
  else if s = [] ∨ s = ['~'] ∨ isWordInAnyCase s "null" then null
  else if isTimestamp s then timestamp
  else if s = ['='] then value
  else str

end Tag

end Yaml

end SandboxProfile
