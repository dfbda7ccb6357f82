import SandboxProfile.Toml.Scalar

/-!
# Documents under construction

A document of TOML is a sequence of statements, each of which adds to a table of tables. A
statement may not say again what was said before: a table has one header at most, a value
is never changed, a table that was made by dotted keys has no header afterwards, and what is
inside brackets or braces is closed once they are. The draft of a document therefore keeps,
beside the values, the keys that are *declared* and those that are *closed*.

## Main definitions

* `Toml.Draft` is a document under construction.
* `Toml.descend` changes the table at a key, making the tables on the way.
* `Draft.openTable`, `Draft.openElement` and `Draft.assign` are the three statements.
-/

namespace SandboxProfile

namespace Toml

/-- The parts of a dotted key. -/
abbrev Key := List Text

/-- The entries of a table. -/
abbrev Entries := List (Value × Value)

/-- A document under construction. -/
structure Draft where
  /-- The entries of the document so far. -/
  root : Entries := []
  /-- The key of the table that statements add to. -/
  header : Key := []
  /-- The keys that may have no header any more. -/
  declared : List Key := []
  /-- The keys that become declared at the next header. -/
  pending : List Key := []
  /-- The keys whose values are closed, with everything below them. -/
  closed : List Key := []

/-- Change the table at a key, making tables on the way where there are none. A list on the
way stands for its last element if `throughLists` is set. -/
def descend (throughLists : Bool) (change : Entries → Option Entries) :
    Key → Entries → Option Entries
  | [], entries => change entries
  | k :: rest, entries =>
    match Value.get? k entries with
    | none =>
      (descend throughLists change rest []).map fun t => Value.put (.text k) (.table t) entries
    | some (.table t) =>
      (descend throughLists change rest t).map fun t => Value.put (.text k) (.table t) entries
    | some (.list elements) =>
      match throughLists, elements.getLast? with
      | true, some (.table t) =>
        (descend throughLists change rest t).map fun t =>
          Value.put (.text k) (.list (elements.dropLast ++ [.table t])) entries
      | _, _ => none
    | some _ => none

/-- Add an entry that must not be there. -/
def addNew (k : Text) (v : Value) (entries : Entries) : Option Entries :=
  if Value.holds k entries then none else some (Value.put (.text k) v entries)

/-- Add an empty table to the list under a name, which is made if it is not there. -/
def addElement (k : Text) (entries : Entries) : Option Entries :=
  match Value.get? k entries with
  | none => some (Value.put (.text k) (.list [.table []]) entries)
  | some (.list elements) => some (Value.put (.text k) (.list (elements ++ [.table []])) entries)
  | some _ => none

/-- Is one of the keys at or above this one? -/
def isBelow (keys : List Key) (key : Key) : Bool :=
  keys.any fun k => k.isPrefixOf key

/-- Is the value a list or a table? -/
def isContainer : Value → Bool
  | .list _ | .table _ => true
  | _ => false

namespace Draft

/-- A draft whose pending keys are declared. -/
def settle (d : Draft) : Draft :=
  { d with declared := d.declared ++ d.pending, pending := [] }

/-- The statement `[key]`. -/
def openTable (d : Draft) (key : Key) : Option Draft :=
  let d := d.settle
  if d.declared.contains key || isBelow d.closed key then none
  else
    (descend true some key d.root).map fun root =>
      { d with root, header := key, declared := key :: d.declared }

/-- The statement `[[key]]`. Everything that was declared or closed below the key belonged to
the element before and is free again. -/
def openElement (d : Draft) (key : Key) : Option Draft :=
  let d := d.settle
  match key.getLast? with
  | none => none
  | some name =>
    if isBelow d.closed key then none
    else
      let free (keys : List Key) : List Key := keys.filter fun k => !key.isPrefixOf k
      (descend true (addElement name) key.dropLast d.root).map fun root =>
        { d with root, header := key, declared := key :: free d.declared, closed := free d.closed }

/-- The keys of the tables that a dotted key passes through, below the header. -/
def passed (d : Draft) (key : Key) : List Key :=
  (List.range (key.length - 1)).map fun i => d.header ++ key.take (i + 1)

/-- The statement `key = value`. -/
def assign (d : Draft) (key : Key) (value : Value) : Option Draft :=
  match key.getLast? with
  | none => none
  | some name =>
    let path := d.header ++ key.dropLast
    let passed := d.passed key
    if passed.any d.declared.contains || isBelow d.closed path then none
    else
      (descend true (addNew name value) path d.root).map fun root =>
        { d with
          root
          pending := d.pending ++ passed
          closed := if isContainer value then (d.header ++ key) :: d.closed else d.closed }

end Draft

/-- Add an entry to a table in braces. The keys whose values are closed come with it. -/
def addInline (key : Key) (value : Value) (closed : List Key) (entries : Entries) :
    Option (Entries × List Key) :=
  match key.getLast? with
  | none => none
  | some name =>
    if isBelow closed key then none
    else
      (descend false (addNew name value) key.dropLast entries).map fun entries =>
        (entries, if isContainer value then key :: closed else closed)

end Toml

end SandboxProfile
