import SandboxProfile.Decimal.Binary64
import SandboxProfile.Text.Basic
import SandboxProfile.Value.Calendar

/-!
# Data values

Configuration and keyword files hold data of one of two formats. Both are read into one type
of values, and what the program makes of a file is decided on these values alone.

## Main definitions

* `Value` is the type of data values.
* `Value.sameKey` tells whether two keys of a table are the same.
* `get?` and `put` look a key of a table up and set it.
* `Value.texts?` is the list of texts that a value is, if it is one.

## Main results

* `Value.texts?_ofTexts` — a list of texts is read back as it was.
-/

namespace SandboxProfile

/-- A data value. -/
inductive Value where
  | null
  | bool (b : Bool)
  | int (i : Int)
  | float (x : Binary64)
  | text (s : Text)
  | bytes (b : List UInt8)
  | date (d : Date)
  | time (t : TimeOfDay)
  | moment (m : Moment)
  | list (elements : List Value)
  /-- Two values that belong together. -/
  | pair (first second : Value)
  /-- A set of values, in the order in which they were added. -/
  | set (elements : List Value)
  /-- A table of keys and values, in the order in which the keys were added. -/
  | table (entries : List (Value × Value))
  /-- A list or table inside itself: the place where it would start again. -/
  | again (isTable : Bool)
  deriving Repr

namespace Value

/-! ### Keys -/

/-- Is the value one integer, a truth value counting as zero or one? -/
def asNumber? : Value → Option Int
  | .int i => some i
  | .bool b => some (if b then 1 else 0)
  | _ => none

/-- Are two keys the same? Numbers are compared by value, whatever their types. Values that
cannot be keys are never the same. -/
def sameKey : Value → Value → Bool
  | .float x, .float y => x.equals y
  | .float x, v =>
    match v.asNumber? with
    | some i => x.equalsInt i
    | none => false
  | v, .float x =>
    match v.asNumber? with
    | some i => x.equalsInt i
    | none => false
  | .null, .null => true
  | .text s, .text t => s = t
  | .bytes a, .bytes b => a = b
  | .date a, .date b => a = b
  | .time a, .time b => a = b
  | .moment a, .moment b => a = b
  | v, w =>
    match v.asNumber?, w.asNumber? with
    | some i, some j => i = j
    | _, _ => false

/-- Is the value this text? -/
def isText (s : Text) : Value → Bool
  | .text t => t = s
  | _ => false

/-! ### Tables -/

/-- The value of a text key. -/
def get? (key : Text) (entries : List (Value × Value)) : Option Value :=
  (entries.find? fun e => e.1.isText key).map Prod.snd

/-- Set a key. A key that is there keeps its place and its spelling; a new one comes last. -/
def put (key value : Value) : List (Value × Value) → List (Value × Value)
  | [] => [(key, value)]
  | (k, v) :: rest => if sameKey k key then (k, value) :: rest else (k, v) :: put key value rest

/-- Is the text a key of the table? -/
def holds (key : Text) (entries : List (Value × Value)) : Bool :=
  (get? key entries).isSome

/-! ### Lists of texts -/

/-- The texts that values are, if all of them are texts. -/
def allTexts? : List Value → Option (List Text)
  | [] => some []
  | .text s :: rest => (allTexts? rest).map (s :: ·)
  | _ :: _ => none

/-- The list of texts that a value is, if it is one. -/
def texts? : Value → Option (List Text)
  | .list elements => allTexts? elements
  | _ => none

/-- A list of texts as a value. -/
def ofTexts (ts : List Text) : Value :=
  .list (ts.map .text)

/-- A list of texts is read back as it was. -/
theorem texts?_ofTexts (ts : List Text) : (ofTexts ts).texts? = some ts := by
  rw [ofTexts, texts?]
  induction ts with
  | nil => rfl
  | cons s rest ih => rw [List.map_cons, allTexts?, ih, Option.map_some]

end Value

end SandboxProfile
