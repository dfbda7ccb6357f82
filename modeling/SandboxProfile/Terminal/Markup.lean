import SandboxProfile.Text.Basic

/-!
# Marks of style

A message may switch styles by *marks*: words in brackets that do not appear themselves. A backslash
before a mark guards it, so that it appears, and two backslashes stand for one. Texts that come from
elsewhere are guarded before they go into a message, so their own brackets appear; what is left of
that are the backslashes at the end of a text and those before a bracket that begins no mark.

Names of pictures between colons, which stand for one character each in a message, are left as they
are.

## Main definitions

* `Terminal.dropGuards` is a guarded text as it appears.
* `Terminal.betweenMarks` is a guarded text as it appears between two marks.
-/

namespace SandboxProfile

namespace Terminal

/-- Does a mark of style begin here: a bracket, then a small letter or one of three signs, and
later, before another opening bracket, the closing one? -/
def startsMark : Text → Bool
  | '[' :: c :: rest =>
    (('a' ≤ c && c ≤ 'z') || c = '#' || c = '/' || c = '@') &&
      (rest.dropWhile fun d => d ≠ '[' && d ≠ ']').head? = some ']'
  | _ => false

/-- A text in which a backslash before a bracket that begins no mark is dropped. -/
def dropGuards : Text → Text
  | [] => []
  | c :: rest =>
    if c = '\\' ∧ rest.head? = some '[' ∧ !startsMark rest then dropGuards rest
    else c :: dropGuards rest

/-- A text whose last character is doubled if it is a lone backslash. -/
def doubleLastBackslash (s : Text) : Text :=
  match s.reverse with
  | ['\\'] => s ++ ['\\']
  | '\\' :: c :: _ => if c = '\\' then s else s ++ ['\\']
  | _ => s

/-- A text as it appears before a closing mark. A lone backslash at its end appears. Of more, one of
two appears, and if one is left over it guards the closing mark, which then appears too. -/
def betweenMarks (closing s : Text) : Text :=
  let guards := Text.endLength (· = '\\') s
  let seen := if guards ≤ 1 then guards else guards / 2
  dropGuards (Text.dropEndWhile (· = '\\') s) ++ List.replicate seen '\\' ++
    if 2 ≤ guards ∧ guards % 2 = 1 then closing else []

end Terminal

end SandboxProfile
