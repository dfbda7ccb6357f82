import SandboxProfile.Text.Printable

/-!
# Quoted texts

Messages show a text between quotes, so that its ends and its unprintable characters can be
seen. The quote is the apostrophe, unless the text holds an apostrophe and no double quote.
Inside, the backslash and the active quote are written with a backslash, line feed, carriage
return and tab by their letters, and any other unprintable character by its code point in
two, four or eight lower-case hexadecimal digits.

## Main definitions

* `Text.quoted` writes a text between quotes.
* `Text.quotedBytes` writes a sequence of bytes in the same style.
-/

namespace SandboxProfile

namespace Text

/-- The quote that encloses a text. -/
def quoteFor (s : Text) : Char :=
  if s.contains '\'' && !s.contains '"' then '"' else '\''

/-- One character inside quotes. -/
def quotedChar (quote c : Char) : Text :=
  if c = quote || c = '\\' then ['\\', c]
  else if c = '\n' then ['\\', 'n']
  else if c = '\r' then ['\\', 'r']
  else if c = '\t' then ['\\', 't']
  else if isPrintable c then [c]
  else if c.toNat < 0x100 then '\\' :: 'x' :: hex 2 c.toNat
  else if c.toNat < 0x10000 then '\\' :: 'u' :: hex 4 c.toNat
  else '\\' :: 'U' :: hex 8 c.toNat

/-- A text between quotes. -/
def quoted (s : Text) : Text :=
  let quote := quoteFor s
  quote :: s.flatMap (quotedChar quote) ++ [quote]

/-- A sequence of bytes between quotes: as a text of the first 256 characters, except that
only ASCII counts as printable. -/
def quotedBytes (bytes : List UInt8) : Text :=
  let chars := bytes.map fun b => Char.ofNat b.toNat
  let quote := quoteFor chars
  let one (c : Char) : Text :=
    if c.toNat < 0x7f then quotedChar quote c else '\\' :: 'x' :: hex 2 c.toNat
  'b' :: quote :: chars.flatMap one ++ [quote]

end Text

end SandboxProfile
