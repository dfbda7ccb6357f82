import SandboxProfile.Text.Basic

/-!
# Lines

A text is a sequence of lines, each a *body* and an *ending*. A line feed ends a line; one
carriage return directly before it belongs to the ending, so that of several carriage
returns only the last leaves the body. A carriage return anywhere else is an ordinary
character. The last line may have no ending, and a text that ends in a line feed has no
further, empty line.

## Main definitions

* `LineEnding` and `Line` describe one line.
* `splitLines` cuts a text into its lines.
* `joinLines` writes lines one after another.
* `unifyBreaks` makes every line break a line feed.

## Main results

* `joinLines_splitLines` — cutting a text into lines loses nothing.
-/

namespace SandboxProfile

/-- What stands at the end of a line. -/
inductive LineEnding where
  /-- The text stops without a line feed. -/
  | none
  /-- A line feed. -/
  | lf
  /-- A carriage return and a line feed. -/
  | crlf
  deriving DecidableEq, Repr

/-- The characters of an ending. -/
def LineEnding.text : LineEnding → Text
  | .none => []
  | .lf => ['\n']
  | .crlf => ['\r', '\n']

/-- One line of a text. -/
structure Line where
  /-- The characters before the ending. -/
  body : Text
  /-- How the line ends. -/
  ending : LineEnding
  deriving DecidableEq, Repr

/-- The characters of a line, ending included. -/
def Line.text (l : Line) : Text :=
  l.body ++ l.ending.text

/-- Put one character in front of the first line. -/
def consToFirst (c : Char) : List Line → List Line
  | [] => [⟨[c], .none⟩]
  | l :: rest => ⟨c :: l.body, l.ending⟩ :: rest

/-- The lines of a text. -/
def splitLines : Text → List Line
  | [] => []
  | '\n' :: rest => ⟨[], .lf⟩ :: splitLines rest
  | '\r' :: '\n' :: rest => ⟨[], .crlf⟩ :: splitLines rest
  | c :: rest => consToFirst c (splitLines rest)

/-- The text that consists of the given lines. -/
def joinLines (lines : List Line) : Text :=
  lines.flatMap Line.text

theorem joinLines_consToFirst (c : Char) (ls : List Line) :
    joinLines (consToFirst c ls) = c :: joinLines ls := by
  cases ls <;> simp [consToFirst, joinLines, Line.text, LineEnding.text]

/-- Cutting a text into lines loses nothing. -/
theorem joinLines_splitLines (s : Text) : joinLines (splitLines s) = s := by
  fun_induction splitLines s with
  | case1 => rfl
  | case2 rest ih =>
    simp only [joinLines, List.flatMap_cons, Line.text, LineEnding.text] at ih ⊢
    simp [ih]
  | case3 rest ih =>
    simp only [joinLines, List.flatMap_cons, Line.text, LineEnding.text] at ih ⊢
    simp [ih]
  | case4 c rest _ _ ih => rw [joinLines_consToFirst, ih]

/-- A text in which carriage returns, alone or before a line feed, have become line feeds. -/
def unifyBreaks : Text → Text
  | '\r' :: '\n' :: rest => '\n' :: unifyBreaks rest
  | '\r' :: rest => '\n' :: unifyBreaks rest
  | c :: rest => c :: unifyBreaks rest
  | [] => []

/-- A text without carriage returns stays as it is. -/
theorem unifyBreaks_of_not_mem {s : Text} (h : '\r' ∉ s) : unifyBreaks s = s := by
  fun_induction unifyBreaks s with
  | case1 => simp at h
  | case2 => simp at h
  | case3 c rest _ _ ih => rw [ih fun hr => h (List.mem_cons_of_mem _ hr)]
  | case4 => rfl

end SandboxProfile
