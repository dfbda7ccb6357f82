import SandboxProfile.Yaml.Node.Grammar
import SandboxProfile.Yaml.Scalar

/-!
# Reading YAML

The nodes of a document become values. All nodes at one depth become values before those
below them, so of several errors the one at the least depth counts, and of several at that
depth the first.

The key `<<` merges the entries of another mapping, or of a sequence of mappings, into its
own mapping. Entries of the mapping itself win over merged ones, and the first mapping of a
sequence wins over the others.

Neither how deeply nodes nest nor how long the document is has a limit: that a stack or the
memory runs out is left out.

## Main definitions

* `Yaml.Found` is a value or an error with its depth.
* `Yaml.valueOf` is the value of a node.
* `Yaml.read` reads a document.
-/

namespace SandboxProfile

namespace Yaml

/-- A result, or an error and the depth at which it was found. -/
abbrev Found (α : Type) := Except (Nat × Error) α

/-- Two results, or the error at the lesser depth; of two at the same depth the first. -/
def Found.both {α β : Type} (a : Found α) (b : Found β) : Found (α × β) :=
  match a, b with
  | .ok x, .ok y => .ok (x, y)
  | .error e, .ok _ => .error e
  | .ok _, .error e => .error e
  | .error d, .error e => if e.1 < d.1 then .error e else .error d

/-- The document is malformed at this depth. -/
def malformedAt {α : Type} (depth : Nat) : Found α :=
  .error (depth, .malformed)

/-- A result that was found at this depth. -/
def foundAt {α : Type} (depth : Nat) : Except Error α → Found α
  | .ok a => .ok a
  | .error e => .error (depth, e)

/-- The text of a node that has to be a scalar. A mapping stands for the value of its key `=`. -/
def textOf? : Node → Option Text
  | .scalar _ text => some text
  | .mapping _ entries => ofEntries? entries
  | _ => none
where
  /-- The text of the value of the key `=`. -/
  ofEntries? : List (Node × Node) → Option Text
    | [] => none
    | (k, v) :: rest => if k.tag = .value then textOf? v else ofEntries? rest

/-- The value of a node that is no collection but has the tag of one, or the other way round,
is an error as soon as its elements are asked for. -/
def scalarAt (depth : Nat) (node : Node) : Found Value :=
  if node.tag.isCollection then malformedAt (depth + 1)
  else
    match node.tag, textOf? node with
    | .unknown, _ | .merge, _ | .value, _ => malformedAt depth
    | tag, some text => foundAt depth (scalarValue tag text)
    | _, none => malformedAt depth

/-- The value of a node that is a key. Collections are no keys, and `=` is a text here. -/
def keyAt (depth : Nat) (node : Node) : Found Value :=
  if node.tag.isCollection then malformedAt depth
  else
    match node with
    | .scalar .value text => .ok (.text text)
    | _ => scalarAt depth node

mutual

/-- The value of a node. -/
def valueOf (depth : Nat) : Node → Found Value
  | .again isMapping => .ok (.again isMapping)
  | .scalar tag text => scalarAt depth (.scalar tag text)
  | .sequence tag elements =>
    match tag with
    | .seq => (valuesOf (depth + 1) elements).map .list
    | .omap | .pairs => (pairsOf (depth + 1) elements).map .list
    | _ => scalarAt depth (.sequence tag elements)
  | .mapping tag entries =>
    match tag with
    | .map =>
      (entriesOf (depth + 1) entries).map fun (merged, own) => .table (unique (merged ++ own))
    | .set =>
      (entriesOf (depth + 1) entries).map fun (merged, own) =>
        .set ((unique (merged ++ own)).map Prod.fst)
    | _ => scalarAt depth (.mapping tag entries)
where
  /-- Entries of which the last of each key counts. -/
  unique (entries : List (Value × Value)) : List (Value × Value) :=
    entries.foldl (fun table e => Value.put e.1 e.2 table) []

/-- The values of several nodes. -/
def valuesOf (depth : Nat) : List Node → Found (List Value)
  | [] => .ok []
  | n :: rest => ((valueOf depth n).both (valuesOf depth rest)).map fun (v, vs) => v :: vs

/-- The pairs that mappings with one entry each stand for. -/
def pairsOf (depth : Nat) : List Node → Found (List Value)
  | [] => .ok []
  | .mapping _ [(k, v)] :: rest =>
    (((valueOf depth k).both (valueOf depth v)).both (pairsOf depth rest)).map
      fun ((a, b), ps) => .pair a b :: ps
  | _ :: _ => malformedAt depth

/-- The merged entries of a mapping, and its own. -/
def entriesOf (depth : Nat) :
    List (Node × Node) → Found (List (Value × Value) × List (Value × Value))
  | [] => .ok ([], [])
  | (k, v) :: rest =>
    if k.tag = .merge then
      ((mergedFrom depth v).both (entriesOf depth rest)).map
        fun (found, merged, own) => (found ++ merged, own)
    else
      (((keyAt depth k).both (valueOf depth v)).both (entriesOf depth rest)).map
        fun ((a, b), merged, own) => (merged, (a, b) :: own)

/-- The entries that the value of a merging key stands for. -/
def mergedFrom (depth : Nat) : Node → Found (List (Value × Value))
  | .mapping _ entries =>
    (entriesOf depth entries).map fun (merged, own) => merged ++ own
  | .sequence _ elements => mergedFromAll depth elements
  | .again isMapping => if isMapping then .ok [] else malformedAt depth
  | .scalar _ _ => malformedAt depth

/-- The entries of several mappings, those of the last one first. -/
def mergedFromAll (depth : Nat) : List Node → Found (List (Value × Value))
  | [] => .ok []
  | .mapping _ entries :: rest =>
    ((entriesOf depth entries).both (mergedFromAll depth rest)).map
      fun ((merged, own), later) => later ++ merged ++ own
  | .again true :: rest => mergedFromAll depth rest
  | _ :: _ => malformedAt depth

end

/-- The value of a document. A document in which nothing is written has no value. -/
def read (s : Text) : Except Error Value := do
  match ← readDocument s with
  | none => return .null
  | some node =>
    match valueOf 0 node with
    | .ok v => return v
    | .error e => .error e.2

end Yaml

end SandboxProfile
