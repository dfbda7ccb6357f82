import SandboxProfile.Text.Basic

/-!
# File name patterns

A pattern is compared with a whole text. A star stands for any characters, slashes among
them, a question mark for one character, and brackets for one character of a class. A
bracket that is never closed stands for itself.

A class lists characters and ranges of characters. Its hyphens are found from the left: the
first has at least one character before it, and each later one at least two characters after
the hyphen before it. A range whose ends are in the wrong order is left out, both of its
ends included. An exclamation mark at the start of what remains negates the class.

## Main definitions

* `Glob.CharClass` is a class of characters, `Glob.Piece` a piece of a pattern.
* `Glob.pieces` are the pieces of a pattern.
* `Glob.isMatch` compares a pattern with a text.
-/

namespace SandboxProfile

namespace Glob

/-- A class of characters. -/
structure CharClass where
  /-- Does the class hold the characters outside of its ranges? -/
  isNegated : Bool
  /-- The ranges, as their first and last characters. -/
  ranges : List (Char × Char)
  deriving DecidableEq, Repr

/-- Is the character in the class? A class without ranges that is not negated is empty. -/
def CharClass.holds (k : CharClass) (c : Char) : Bool :=
  (k.ranges.any fun r => r.1 ≤ c && c ≤ r.2) != k.isNegated

/-- A piece of a pattern. -/
inductive Piece where
  /-- Any characters. -/
  | star
  /-- Any one character. -/
  | any
  /-- This character. -/
  | char (c : Char)
  /-- A character of the class. -/
  | oneOf (k : CharClass)
  deriving DecidableEq, Repr

/-! ### Classes -/

/-- The chunks between the hyphens of a class. The first `skip` characters belong to the first
chunk even if they are hyphens. -/
def chunks (skip : Nat) : Text → List Text
  | [] => [[]]
  | c :: rest =>
    match skip with
    | 0 => if c = '-' then [] :: chunks 2 rest else addToFirst c (chunks 0 rest)
    | n + 1 => addToFirst c (chunks n rest)
where
  /-- Put a character in front of the first chunk. -/
  addToFirst (c : Char) : List Text → List Text
    | [] => [[c]]
    | chunk :: others => (c :: chunk) :: others

/-- The chunks, in which a hyphen at the end of the class stands for itself. -/
def keepLastHyphen : List Text → List Text
  | [] => []
  | [chunk] => [chunk]
  | [chunk, []] => [chunk ++ ['-']]
  | chunk :: others => chunk :: keepLastHyphen others

/-- The chunks without the ranges between neighbours that are in the wrong order. -/
def dropEmptyRanges : List Text → List Text
  | [] => []
  | chunk :: others =>
    match dropEmptyRanges others with
    | [] => [chunk]
    | next :: rest =>
      match chunk.getLast?, next.head? with
      | some low, some high =>
        if high < low then (chunk.dropLast ++ next.drop 1) :: rest else chunk :: next :: rest
      | _, _ => chunk :: next :: rest

/-- The ranges of chunks: each character of a chunk for itself, and a range from the end of
each chunk to the start of the next. -/
def rangesOf : List Text → List (Char × Char)
  | [] => []
  | [chunk] => chunk.map fun c => (c, c)
  | chunk :: next :: rest =>
    let between :=
      match chunk.getLast?, next.head? with
      | some low, some high => [(low, high)]
      | _, _ => [('-', '-')]
    (chunk.map fun c => (c, c)) ++ between ++ rangesOf (next :: rest)

/-- The class that a text between brackets stands for. -/
def classOf (inside : Text) : CharClass :=
  let skip := if inside.head? = some '!' then 2 else 1
  match dropEmptyRanges (keepLastHyphen (chunks skip inside)) with
  | ('!' :: chunk) :: rest => ⟨true, rangesOf (chunk :: rest)⟩
  | parts => ⟨false, rangesOf parts⟩

/-! ### Patterns -/

/-- The text between brackets and what follows them. A closing bracket at the start of the
class does not close it. -/
def cutClass? (s : Text) : Option (Text × Text) :=
  let bang := s.takeWhile (· = '!') |>.take 1
  let afterBang := s.drop bang.length
  let bracket := if afterBang.head? = some ']' then [']'] else []
  let body := afterBang.drop bracket.length
  match body.dropWhile (· ≠ ']') with
  | ']' :: rest => some (bang ++ bracket ++ body.takeWhile (· ≠ ']'), rest)
  | _ => none

/-- The pieces of a pattern of at most `fuel` characters. -/
def piecesFrom : Nat → Text → List Piece
  | 0, _ => []
  | _, [] => []
  | fuel + 1, c :: rest =>
    if c = '*' then .star :: piecesFrom fuel (rest.dropWhile (· = '*'))
    else if c = '?' then .any :: piecesFrom fuel rest
    else if c = '[' then
      match cutClass? rest with
      | some (inside, after) => .oneOf (classOf inside) :: piecesFrom fuel after
      | none => .char '[' :: piecesFrom fuel rest
    else .char c :: piecesFrom fuel rest

/-- The pieces of a pattern. -/
def pieces (pattern : Text) : List Piece :=
  piecesFrom pattern.length pattern

/-- Does a piece stand for this one character? -/
def Piece.isMatch : Piece → Char → Bool
  | star, _ => false
  | any, _ => true
  | char d, c => c = d
  | oneOf k, c => k.holds c

/-- Do pieces stand for a text? -/
def matchPieces : List Piece → Text → Bool
  | [], s => s.isEmpty
  | .star :: ps, [] => matchPieces ps []
  | .star :: ps, c :: s => matchPieces ps (c :: s) || matchPieces (.star :: ps) s
  | _ :: _, [] => false
  | p :: ps, c :: s => p.isMatch c && matchPieces ps s
termination_by ps s => ps.length + s.length

/-- Does the pattern stand for the text? -/
def isMatch (pattern s : Text) : Bool :=
  matchPieces (pieces pattern) s

end Glob

end SandboxProfile
