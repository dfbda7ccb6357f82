import SandboxProfile.Text.Basic

/-!
# Blank characters

A *blank* is any character that separates words without being part of one: the ASCII
whitespace and the four information separators, the next-line character, and the space
characters of Unicode. The same set decides where a path ends, what counts as indentation
and what is trimmed from the two ends of a name.

## Main definitions

* `isBlank` is the set itself.
* `Text.trimStart`, `Text.trimEnd` and `Text.trim` remove blanks at the ends of a text.

## Main results

* `toNat_of_isBlank` — which ASCII characters are blank.
-/

namespace SandboxProfile

/-- The blank characters. The zero-width space and the byte order mark are not among them. -/
def isBlank (c : Char) : Bool :=
  let n := c.toNat
  (0x09 ≤ n && n ≤ 0x0d) || (0x1c ≤ n && n ≤ 0x20) || n == 0x85 || n == 0xa0 || n == 0x1680 ||
    (0x2000 ≤ n && n ≤ 0x200a) || n == 0x2028 || n == 0x2029 || n == 0x202f || n == 0x205f ||
    n == 0x3000

/-- The numbers of the blanks, as far as they are ASCII. -/
theorem toNat_of_isBlank {c : Char} (h : isBlank c = true) :
    (0x09 ≤ c.toNat ∧ c.toNat ≤ 0x0d) ∨ (0x1c ≤ c.toNat ∧ c.toNat ≤ 0x20) ∨ 0x85 ≤ c.toNat := by
  simp only [isBlank, Bool.or_eq_true, Bool.and_eq_true, decide_eq_true_eq, beq_iff_eq] at h
  omega

namespace Text

/-- A text without the blanks at its start. -/
def trimStart (s : Text) : Text :=
  s.dropWhile isBlank

/-- A text without the blanks at its end. -/
def trimEnd (s : Text) : Text :=
  dropEndWhile isBlank s

/-- A text without the blanks at its two ends. -/
def trim (s : Text) : Text :=
  trimEnd (trimStart s)

end Text

end SandboxProfile
