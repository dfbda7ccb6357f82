import SandboxProfile.Runs
import SandboxProfile.Token.Basic

/-!
# Cutting a text into tokens

Every character of a text has one of four classes. A number sign opens a comment, which runs
to the next line feed whatever it contains. Outside comments a character is blank,
punctuation or part of a word. Tokens are the maximal runs of characters of one class,
blanks excepted; a comment token leaves out the carriage returns at its end.

## Main definitions

* `isPunctuation` and `isWordChar` are the classes outside comments.
* `charClasses` gives each character of a text its class.
* `tokenize` lists the tokens of a text, with or without the comments.
* `firstToken?` is the first token that is no comment.
-/

namespace SandboxProfile

/-- The punctuation characters. -/
def punctuation : Text :=
  ",;=()[]<>|&!\"\\`".toList

/-- Is the character punctuation? -/
def isPunctuation (c : Char) : Bool :=
  punctuation.contains c

/-- Can the character be part of a word? -/
def isWordChar (c : Char) : Bool :=
  !isBlank c && c != '#' && !isPunctuation c

/-- The class of a character outside comments: the kind of token that it belongs to, or
`none` for a blank. The number sign opens a comment and so belongs to it. -/
def charClass (c : Char) : Option TokenKind :=
  if isBlank c then none
  else if c = '#' then some .comment
  else if isPunctuation c then some .punctuation
  else some .word

/-- Each character with its class. The flag tells whether the text starts inside a comment,
which a line feed ends. -/
def charClasses : Bool → Text → List (Char × Option TokenKind)
  | _, [] => []
  | inComment, c :: rest =>
    if c = '\n' then (c, none) :: charClasses false rest
    else if inComment || c = '#' then (c, some .comment) :: charClasses true rest
    else (c, charClass c) :: charClasses false rest

/-- The token that a run of characters makes. -/
def tokenOfRun (r : Run (Char × Option TokenKind) TokenKind) : Token :=
  let text := r.members.map Prod.fst
  ⟨if r.key = .comment then Text.dropEndWhile (· = '\r') text else text, r.start, ⟨r.key, none⟩⟩

/-- The tokens of a text, comments included. -/
def allTokens (s : Text) : List Token :=
  (runsFrom Prod.snd 0 (charClasses false s)).map tokenOfRun

/-- The tokens of a text; comments are listed only if asked for. -/
def tokenize (comments : Bool) (s : Text) : List Token :=
  if comments then allTokens s else (allTokens s).filter fun t => t.mark.kind ≠ .comment

/-- The first token that is no comment. -/
def firstToken? (s : Text) : Option Token :=
  (tokenize false s).head?

end SandboxProfile
