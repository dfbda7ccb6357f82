import SandboxProfile.Fault
import SandboxProfile.Yaml.Cursor

/-!
# Tokens of a document

A document is first cut into tokens. Indentation appears as tokens that open and close
blocks, so that the grammar of nodes need not count columns.

## Main definitions

* `Yaml.Error` is why a document cannot be read.
* `Yaml.Token` is the type of tokens.
-/

namespace SandboxProfile

namespace Yaml

/-- Why a document cannot be read. -/
inductive Error where
  /-- It does not follow the grammar, or it asks for something that does not exist. -/
  | malformed
  /-- It holds a value that does not exist. -/
  | fault (f : Fault)
  deriving DecidableEq, Repr

/-- A token of a document. -/
inductive Token where
  /-- The version of the format, of which the major number counts. -/
  | version (major : Nat)
  /-- A handle for tags and what it stands for. -/
  | handle (name stands : Text)
  | otherDirective
  | documentStart
  | documentEnd
  | streamEnd
  /-- An indented list begins. -/
  | blockSequence
  /-- An indented table begins. -/
  | blockMapping
  /-- An indented list or table ends. -/
  | blockEnd
  | flowSequence
  | flowSequenceEnd
  | flowMapping
  | flowMappingEnd
  /-- The dash before an element. -/
  | entry
  | comma
  /-- A key follows. -/
  | key
  /-- The value of a key follows. -/
  | value
  /-- A reference to an anchor. -/
  | alias (name : Text)
  /-- A name for the node that follows. -/
  | anchor (name : Text)
  /-- The type of the node that follows: a handle, if there is one, and the rest. -/
  | tag (handle : Option Text) (suffix : Text)
  /-- A scalar, and whether it is written without quotes. -/
  | scalar (text : Text) (plain : Bool)
  /-- No further token could be cut out. -/
  | failed (e : Error)

end Yaml

end SandboxProfile
