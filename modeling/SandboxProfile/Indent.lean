import SandboxProfile.Text.Line
import SandboxProfile.Token.Lexer

/-!
# Indentation

Profiles have no blocks, so a line is indented by looking at that line alone: lines whose
first token is one of three directives start at the margin, all others at one offset. The
offset is written in spaces, or in tabs with spaces for the rest of the division. Blank
lines come out empty, and line endings stay as they are. Two things stand in the way of an
indentation: tabs without a width, and a number of blanks that no machine word holds.

## Main definitions

* `IndentStyle` says how far and with what lines are indented.
* `indentFor` is the indentation of a line in columns.
* `leadingBlanks` writes an indentation.
* `formatLine` and `formatText` indent a line and a whole text.
-/

namespace SandboxProfile

/-- How lines are indented. Neither number is restricted here; a style that was read from a
configuration has an offset of at least zero and a tab width of at least one. -/
structure IndentStyle where
  /-- The indentation in columns of every line that does not start at the margin. -/
  offset : Int := 2
  /-- Are tabs used? -/
  useTabs : Bool := false
  /-- The number of columns that a tab stands for. -/
  tabWidth : Int := 8
  deriving DecidableEq, Repr

/-- Why a line cannot be indented. -/
inductive IndentError where
  /-- Tabs are to be used and have no width. -/
  | zeroTabWidth
  /-- The number of blanks does not fit a machine word. -/
  | beyondWord
  deriving DecidableEq, Repr

/-- The first tokens of lines that start at the margin. -/
def flushLeft : List Text :=
  ["include".toList, "blacklist".toList, "whitelist".toList]

/-- Does the line start at the margin? -/
def isFlushLeft (line : Text) : Bool :=
  match firstToken? line with
  | some t => flushLeft.contains t.text
  | none => false

/-- The indentation of a line in columns. -/
def indentFor (offset : Int) (line : Text) : Int :=
  if isFlushLeft line then 0 else offset

/-- The least number that is too large for a machine word with a sign. -/
def wordLimit : Nat := Nat.pow 2 63

/-- A number of copies of a character; none below zero. -/
def copies (n : Int) (c : Char) : Except IndentError Text :=
  if -(wordLimit : Int) ≤ n ∧ n < wordLimit then .ok (List.replicate n.toNat c)
  else .error .beyondWord

/-- Blanks that fill the given number of columns. The division by the tab width rounds down,
so that the rest has the sign of the width. -/
def leadingBlanks (style : IndentStyle) (columns : Int) : Except IndentError Text :=
  if style.useTabs then
    if style.tabWidth = 0 then .error .zeroTabWidth
    else do
      let tabs ← copies (columns.fdiv style.tabWidth) '\t'
      let spaces ← copies (columns.fmod style.tabWidth) ' '
      return tabs ++ spaces
  else copies columns ' '

/-- A line, without its ending, with the indentation that it should have. -/
def formatLine (style : IndentStyle) (line : Text) : Except IndentError Text :=
  match Text.trimStart line with
  | [] => .ok []
  | c :: rest => do
    let blanks ← leadingBlanks style (indentFor style.offset (c :: rest))
    return blanks ++ c :: rest

/-- All lines with the indentation that they should have. -/
def formatLines (style : IndentStyle) : List Line → Except IndentError (List Line)
  | [] => .ok []
  | l :: rest => do
    let body ← formatLine style l.body
    let others ← formatLines style rest
    return ⟨body, l.ending⟩ :: others

/-- A text whose lines all have the indentation that they should have. -/
def formatText (style : IndentStyle) (s : Text) : Except IndentError Text := do
  return joinLines (← formatLines style (splitLines s))

end SandboxProfile
