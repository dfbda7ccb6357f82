import SandboxProfile.Keyword.Category

/-!
# Tokens and marks

A *mark* says what a stretch of text is: its kind, and for keywords their category. A token
is a stretch of text with its offset and its mark.

## Main definitions

* `TokenKind` lists the kinds, with their names.
* `Mark` is a kind together with an optional category; `Mark.label` is the name under which
  reports show it.
* `Token` is a stretch of text.
-/

namespace SandboxProfile

/-- What a stretch of text can be. -/
inductive TokenKind where
  /-- From a number sign to the end of the line. -/
  | comment
  /-- A word that the catalog knows. -/
  | keyword
  /-- A reference to an environment variable. -/
  | envVar
  /-- A slash with the characters that follow it. -/
  | path
  /-- Any other word. -/
  | word
  /-- Punctuation characters. -/
  | punctuation
  deriving DecidableEq, Repr

namespace TokenKind

/-- All kinds. -/
def all : List TokenKind :=
  [comment, keyword, envVar, path, word, punctuation]

/-- The name of a kind. -/
def name : TokenKind → String
  | comment => "comment"
  | keyword => "keyword"
  | envVar => "variable"
  | path => "path"
  | word => "word"
  | punctuation => "punctuation"

/-- The kind of exactly this name. -/
def ofName? (s : Text) : Option TokenKind :=
  all.find? fun k => k.name.toList = s

end TokenKind

/-- A name that is no kind's. -/
structure UnknownKind where
  name : Text
  deriving DecidableEq, Repr

/-- The wording of the error. -/
def UnknownKind.message (e : UnknownKind) : Text :=
  Text.quoted e.name ++ " is not a valid TokenKind".toList

/-- The kind of exactly this name, or the error that there is none. -/
def TokenKind.ofName (s : Text) : Except UnknownKind TokenKind :=
  match TokenKind.ofName? s with
  | some k => .ok k
  | none => .error ⟨s⟩

/-- What a stretch of text is. -/
structure Mark where
  kind : TokenKind
  /-- The category of a keyword. -/
  category : Option Category := none
  deriving DecidableEq, Repr

/-- The name under which reports show a mark: the category if there is one, else the kind. -/
def Mark.label (m : Mark) : String :=
  match m.category with
  | some c => c.name
  | none => m.kind.name

/-- A stretch of a text. -/
structure Token where
  text : Text
  /-- The offset of its first character. -/
  start : Nat
  /-- What it is. -/
  mark : Mark
  deriving DecidableEq, Repr

/-- The offset after the last character of a token. -/
def Token.stop (t : Token) : Nat :=
  t.start + t.text.length

end SandboxProfile
