import SandboxProfile.Yaml.Node.Basic
import SandboxProfile.Yaml.Token.Stream

/-!
# The grammar of nodes

A document is read from its tokens by recursive descent. The functions carry a bound on the
depth of the recursion that the number of tokens supplies; running out of it cannot happen,
and counts as malformed.

## Main definitions

* `Yaml.Reading` is what is left of the tokens, with the anchors so far.
* `Yaml.readNode` reads a node.
* `Yaml.readDocument` reads all tokens of a document.
-/

namespace SandboxProfile

namespace Yaml

/-- The tokens that are left, and the names that were given so far. -/
structure Reading where
  tokens : List Token
  /-- The nodes that have anchors. -/
  anchors : List (Text × Node) := []
  /-- What the handles of tags stand for. -/
  handles : List (Text × Text) := []

/-- A function that reads from the tokens. -/
abbrev Parser := StateT Reading (Except Error)

/-- The document does not follow the grammar. -/
def malformed {α : Type} : Parser α :=
  throw .malformed

/-- The next token. -/
def peek : Parser Token := do
  match (← get).tokens with
  | .failed e :: _ => throw e
  | t :: _ => return t
  | [] => return .streamEnd

/-- Go on to the token after the next. -/
def advance : Parser Unit :=
  modify fun r => { r with tokens := r.tokens.drop 1 }

/-! ### Directives -/

/-- The handles that every document has. -/
def commonHandles : List (Text × Text) :=
  [(['!'], ['!']), (['!', '!'], Tag.namespaceName)]

/-- The directives before a document. The flag tells whether the version was given before. -/
def readDirectives : Nat → Bool → Parser Unit
  | 0, _ => malformed
  | fuel + 1, hasVersion => do
    match ← peek with
    | .version major =>
      if hasVersion ∨ major ≠ 1 then malformed
      advance
      readDirectives fuel true
    | .handle name stands =>
      if ((← get).handles.lookup name).isSome then malformed
      modify fun r => { r with handles := (name, stands) :: r.handles }
      advance
      readDirectives fuel hasVersion
    | .otherDirective =>
      advance
      readDirectives fuel hasVersion
    | _ => return

/-! ### Properties -/

/-- How the tag of a node is written. -/
inductive TagChoice where
  | absent
  /-- An exclamation mark alone: the tag is found from the form even inside quotes. -/
  | fromForm
  | given (t : Tag)

/-- The anchor and the tag before a node. -/
structure Properties where
  /-- The name of the node. -/
  anchor : Option Text := none
  tag : TagChoice := .absent

namespace Properties

/-- Is there an anchor or a tag? -/
def areWritten (p : Properties) : Bool :=
  match p.anchor, p.tag with
  | none, .absent => false
  | _, _ => true

/-- The tag of a scalar. -/
def scalarTag (p : Properties) (text : Text) (plain : Bool) : Tag :=
  match p.tag with
  | .given t => t
  | .fromForm => Tag.ofPlain text
  | .absent => if plain then Tag.ofPlain text else .str

/-- The tag of a sequence or a mapping. -/
def tagOr (p : Properties) (fallback : Tag) : Tag :=
  match p.tag with
  | .given t => t
  | _ => fallback

end Properties

/-- The tag that a token stands for. -/
def resolveTag (handle : Option Text) (suffix : Text) : Parser TagChoice := do
  match handle with
  | none => return if suffix = ['!'] then .fromForm else .given (Tag.ofName suffix)
  | some h =>
    match (← get).handles.lookup h with
    | some stands =>
      let name := stands ++ suffix
      return if name = ['!'] then .fromForm else .given (Tag.ofName name)
    | none => malformed

/-- The anchor, if it comes next. -/
def readAnchor (p : Properties) : Parser Properties := do
  match ← peek with
  | .anchor name => advance; return { p with anchor := some name }
  | _ => return p

/-- The tag, if it comes next. -/
def readTag (p : Properties) : Parser Properties := do
  match ← peek with
  | .tag handle suffix => advance; return { p with tag := ← resolveTag handle suffix }
  | _ => return p

/-- An anchor and a tag in either order; each may be missing. -/
def readProperties : Parser Properties := do
  match ← peek with
  | .anchor _ => readTag (← readAnchor {})
  | .tag _ _ => readAnchor (← readTag {})
  | _ => return {}

/-- Give a node its name. The name must be new. -/
def openAnchor (anchor : Option Text) (node : Node) : Parser Unit := do
  match anchor with
  | none => return
  | some name =>
    if ((← get).anchors.lookup name).isSome then malformed
    modify fun r => { r with anchors := (name, node) :: r.anchors }

/-- Replace the node of a name. -/
def closeAnchor (anchor : Option Text) (node : Node) : Parser Unit := do
  match anchor with
  | none => return
  | some name =>
    modify fun r =>
      { r with anchors := r.anchors.map fun e => if e.1 = name then (name, node) else e }

/-! ### Nodes -/

/-- Does nothing stand before this token where a node of a sequence should be? -/
def Token.endsEntry : Token → Bool
  | .entry | .blockEnd => true
  | _ => false

/-- Does nothing stand before this token where a key or a value should be? -/
def Token.endsPair : Token → Bool
  | .key | .value | .blockEnd => true
  | _ => false

/-- Does nothing stand before this token inside brackets? -/
def Token.endsFlow : Token → Bool
  | .value | .comma | .flowSequenceEnd | .flowMappingEnd => true
  | _ => false

/-- The contexts that a node can stand in. -/
inductive Context where
  | flow
  | block
  /-- In a block, as a key or a value. Its sequences need no indentation. -/
  | pair
  deriving DecidableEq, Repr

mutual

/-- A node. -/
def readNode : Nat → Context → Parser Node
  | 0, _ => malformed
  | fuel + 1, context => do
    match ← peek with
    | .alias name =>
      advance
      match (← get).anchors.lookup name with
      | some node => return node
      | none => malformed
    | _ => readContent fuel context (← readProperties)

/-- What follows the properties of a node. -/
def readContent : Nat → Context → Properties → Parser Node
  | 0, _, _ => malformed
  | fuel + 1, context, p => do
    match ← peek, context with
    | .entry, .pair => readSequence p (readUnindented fuel)
    | .scalar text plain, _ =>
      advance
      let node := Node.scalar (p.scalarTag text plain) text
      openAnchor p.anchor node
      return node
    | .flowSequence, _ =>
      advance
      readSequence p (readFlowSequence fuel true)
    | .flowMapping, _ =>
      advance
      readMapping p (readFlowMapping fuel true)
    | t, _ =>
      match t, decide (context = .flow) with
      | .blockSequence, false =>
        advance
        readSequence p (readEntries fuel)
      | .blockMapping, false =>
        advance
        readMapping p (readPairs fuel)
      | _, _ =>
        if p.areWritten then
          let node := Node.scalar (p.scalarTag [] true) []
          openAnchor p.anchor node
          return node
        else malformed
where
  /-- A sequence whose elements `elements` reads. -/
  readSequence (p : Properties) (elements : Parser (List Node)) : Parser Node := do
    openAnchor p.anchor (.again false)
    let node := Node.sequence (p.tagOr .seq) (← elements)
    closeAnchor p.anchor node
    return node
  /-- A mapping whose entries `entries` reads. -/
  readMapping (p : Properties) (entries : Parser (List (Node × Node))) : Parser Node := do
    openAnchor p.anchor (.again true)
    let node := Node.mapping (p.tagOr .map) (← entries)
    closeAnchor p.anchor node
    return node

/-- A node, unless the next token shows that there is none. -/
def readOptional : Nat → Context → (Token → Bool) → Parser Node
  | 0, _, _ => malformed
  | fuel + 1, context, ends => do
    if ends (← peek) then return Node.empty else readNode fuel context

/-- The elements of an indented sequence up to its end. -/
def readEntries : Nat → Parser (List Node)
  | 0 => malformed
  | fuel + 1 => do
    match ← peek with
    | .entry =>
      advance
      let node ← readOptional fuel .block Token.endsEntry
      return node :: (← readEntries fuel)
    | .blockEnd => advance; return []
    | _ => malformed

/-- The elements of a sequence that is not indented. -/
def readUnindented : Nat → Parser (List Node)
  | 0 => malformed
  | fuel + 1 => do
    match ← peek with
    | .entry =>
      advance
      let node ← readOptional fuel .block fun t => t.endsEntry || t.endsPair
      return node :: (← readUnindented fuel)
    | _ => return []

/-- The entries of an indented mapping up to its end. -/
def readPairs : Nat → Parser (List (Node × Node))
  | 0 => malformed
  | fuel + 1 => do
    match ← peek with
    | .key =>
      advance
      let key ← readOptional fuel .pair Token.endsPair
      let value ← readValue fuel .pair Token.endsPair
      return (key, value) :: (← readPairs fuel)
    | .blockEnd => advance; return []
    | _ => malformed

/-- The value of a key, if there is one. -/
def readValue : Nat → Context → (Token → Bool) → Parser Node
  | 0, _, _ => malformed
  | fuel + 1, context, ends => do
    match ← peek with
    | .value =>
      advance
      readOptional fuel context ends
    | _ => return Node.empty

/-- The comma before an element between brackets that is not the first. -/
def readComma (isFirst : Bool) : Parser Unit := do
  match ← peek, isFirst with
  | _, true => return
  | .comma, false => advance
  | _, false => malformed

/-- The elements between brackets. A pair stands for a mapping with one entry. -/
def readFlowSequence : Nat → Bool → Parser (List Node)
  | 0, _ => malformed
  | fuel + 1, isFirst => do
    match ← peek with
    | .flowSequenceEnd => advance; return []
    | _ =>
      readComma isFirst
      match ← peek with
      | .flowSequenceEnd => advance; return []
      | .key =>
        advance
        let key ← readOptional fuel .flow Token.endsFlow
        let value ← readValue fuel .flow Token.endsFlow
        return .mapping .map [(key, value)] :: (← readFlowSequence fuel false)
      | _ =>
        let node ← readNode fuel .flow
        return node :: (← readFlowSequence fuel false)

/-- The entries between braces. A node that is no key has an empty value. -/
def readFlowMapping : Nat → Bool → Parser (List (Node × Node))
  | 0, _ => malformed
  | fuel + 1, isFirst => do
    match ← peek with
    | .flowMappingEnd => advance; return []
    | _ =>
      readComma isFirst
      match ← peek with
      | .flowMappingEnd => advance; return []
      | .key =>
        advance
        let key ← readOptional fuel .flow Token.endsFlow
        let value ← readValue fuel .flow Token.endsFlow
        return (key, value) :: (← readFlowMapping fuel false)
      | _ =>
        let node ← readNode fuel .flow
        return (node, Node.empty) :: (← readFlowMapping fuel false)

end

/-! ### Documents -/

/-- Marks that end a document. -/
def skipDocumentEnds : Nat → Parser Unit
  | 0 => return
  | fuel + 1 => do
    match ← peek with
    | .documentEnd =>
      advance
      skipDocumentEnds fuel
    | _ => return

/-- The node of a document that starts with directives or a mark. -/
def readMarked (fuel : Nat) : Parser Node := do
  readDirectives fuel false
  match ← peek with
  | .documentStart => advance
  | _ => malformed
  modify fun r => { r with handles := r.handles ++ commonHandles }
  match ← peek with
  | .version _ | .handle _ _ | .otherDirective | .documentStart | .documentEnd | .streamEnd =>
    return Node.empty
  | _ => readNode fuel .block

/-- The node of the only document, if there is one. -/
def readOnly (fuel : Nat) : Parser (Option Node) := do
  let node ←
    match ← peek with
    | .streamEnd => return none
    | .version _ | .handle _ _ | .otherDirective | .documentStart => readMarked fuel
    | _ =>
      modify fun r => { r with handles := commonHandles }
      readNode fuel .block
  skipDocumentEnds fuel
  match ← peek with
  | .streamEnd => return some node
  | _ => malformed

/-- The node of a document; there is none if nothing is written. -/
def readDocument (s : Text) : Except Error (Option Node) :=
  let ts := tokens s
  (readOnly (8 * (ts.length + 1))).run' { tokens := ts }

end Yaml

end SandboxProfile
