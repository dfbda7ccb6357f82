import SandboxProfile.Highlight.Pattern
import SandboxProfile.Highlight.Span
import SandboxProfile.Indent
import SandboxProfile.Keyword.Builtin

/-!
# Highlighting

Every column of a line is marked by the strongest rule that covers it: a comment beats a
keyword, a keyword a variable, a variable a path, and a path a plain word. Tokens decide
which columns are comments, keywords and words; variables and paths are looked for in the
whole line and may run through punctuation. Spans are the maximal runs of columns with one
mark, so punctuation outside paths and variables belongs to none.

## Main definitions

* `Catalog.markOf` classifies one token by itself.
* `lineColumns` gives the mark of each column of a line.
* `highlightLine` and `highlight` list the spans of a line and of a text.
* `analyseLines` lists the lines of a text with their tokens and their indentation.
-/

namespace SandboxProfile

/-! ### Tokens by themselves -/

/-- What a word is that no catalog knows. -/
def plainKind (s : Text) : TokenKind :=
  if Text.startsWith s ['#'] then .comment
  else if holdsVariable s then .envVar
  else if holdsPath s then .path
  else .word

/-- The mark of a stretch of text that was cut out with the given mark. Comments and
punctuation stay what they are. -/
def Catalog.markOf (k : Catalog) (text : Text) (mark : Mark) : Mark :=
  if mark.kind = .comment ∨ mark.kind = .punctuation then mark
  else
    match k.classify text with
    | some c => ⟨.keyword, some c⟩
    | none => ⟨plainKind text, none⟩

/-- A token with the mark that the catalog gives it. -/
def Catalog.classifyToken (k : Catalog) (t : Token) : Token :=
  { t with mark := k.markOf t.text t.mark }

/-! ### Columns -/

/-- How strongly a mark holds against others on the same column. -/
def Mark.rank (m : Mark) : Nat :=
  match m.kind with
  | .punctuation => 0
  | .word => 1
  | .path => 2
  | .envVar => 3
  | .keyword => 4
  | .comment => 5

/-- The stronger of two marks; of two equally strong ones the first. -/
def strongerMark : Option Mark → Option Mark → Option Mark
  | none, m => m
  | some m, none => some m
  | some m, some n => if m.rank < n.rank then some n else some m

/-- The mark that a token puts on its columns. -/
def Catalog.tokenMark (k : Catalog) (t : Token) : Option Mark :=
  match t.mark.kind with
  | .comment => some ⟨.comment, none⟩
  | .punctuation => none
  | _ =>
    match k.classify t.text with
    | some c => some ⟨.keyword, some c⟩
    | none => some ⟨.word, none⟩

/-- The marks that tokens put on the columns from `column` up to `length`. -/
def tokenColumns (k : Catalog) (length column : Nat) : List Token → List (Option Mark)
  | [] => List.replicate (length - column) none
  | t :: rest =>
    List.replicate (t.start - column) none ++ List.replicate t.text.length (k.tokenMark t) ++
      tokenColumns k length t.stop rest

/-- The mark of a column, from that of its token and from whether it lies in a variable or a
path. -/
def columnMark (token : Option Mark) (inVariable inPath : Bool) : Option Mark :=
  strongerMark
    (strongerMark token (if inPath then some ⟨.path, none⟩ else none))
    (if inVariable then some ⟨.envVar, none⟩ else none)

/-- The mark of each column of a line. -/
def lineColumns (k : Catalog) (line : Text) : List (Option Mark) :=
  List.zipWith (fun token (patterns : Bool × Bool) => columnMark token patterns.1 patterns.2)
    (tokenColumns k line.length 0 (tokenize true line))
    ((variableColumns line).zip (pathColumns line))

/-! ### Spans -/

/-- The span that a run of columns makes. -/
def spanOfRun (line : Int) (r : Run (Option Mark) Mark) : Span :=
  ⟨line, r.start, r.stop, r.key⟩

/-- The spans of one line, without its ending. -/
def highlightLine (k : Catalog) (number : Int) (line : Text) : List Span :=
  (runsFrom id 0 (lineColumns k line)).map (spanOfRun number)

/-- The spans of lines that are numbered from `number` on. -/
def highlightFrom (k : Catalog) (number : Nat) : List Line → List Span
  | [] => []
  | l :: rest => highlightLine k number l.body ++ highlightFrom k (number + 1) rest

/-- The spans of all lines of a text. -/
def highlight (k : Catalog) (s : Text) : List Span :=
  highlightFrom k 1 (splitLines s)

/-! ### Line records -/

/-- What is known about one line of a text. -/
structure LineRecord where
  /-- The number of the line, from one. -/
  number : Nat
  /-- The line without its ending. -/
  text : Text
  /-- Its tokens, comments included, each with its mark. -/
  tokens : List Token
  /-- The indentation in columns that it should have. -/
  indent : Int
  deriving DecidableEq, Repr

/-- The records of lines that are numbered from `number` on. -/
def analyseFrom (k : Catalog) (offset : Int) (number : Nat) : List Line → List LineRecord
  | [] => []
  | l :: rest =>
    ⟨number, l.body, (tokenize true l.body).map k.classifyToken, indentFor offset l.body⟩ ::
      analyseFrom k offset (number + 1) rest

/-- The records of all lines of a text. -/
def analyseLines (k : Catalog) (offset : Int) (s : Text) : List LineRecord :=
  analyseFrom k offset 1 (splitLines s)

end SandboxProfile
