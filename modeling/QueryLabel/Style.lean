import QueryLabel.Binary64.Layout
import QueryLabel.Text.Blank

/-!
The two styles of output.  The spaced one has blanks behind its separators, nothing but printable
ASCII characters, and its own spelling of numbers; the compact one has no blanks and leaves
characters and numbers as they are.
-/

namespace QueryLabel

/-- A style of output. -/
inductive Style
  | spaced
  | compact
deriving Repr, DecidableEq

namespace Style

/-- The word for a style in settings and messages. -/
def name : Style → String
  | spaced => "python"
  | compact => "compact"

/-- The style with exactly this name. -/
def ofName? (name : Text) : Option Style :=
  if name = spaced.name.toList then some .spaced
  else if name = compact.name.toList then some .compact
  else none

/-- The form in which a style's name is compared: without blanks around it, in small letters. -/
def canonicalName (text : Text) : Text :=
  Text.lowerAscii (Text.trim text)

/-- The style that a text names, up to blanks around it and the case of its letters. -/
def parse? (text : Text) : Option Style :=
  ofName? (canonicalName text)

/-- Numbers in the spaced style: an exponent has two digits or more, and a half goes up. -/
def spacedLayout : Layout where
  positional e := -4 ≤ e ∧ e < 16
  exponentWidth := 2
  tie := .up
  nan := "NaN"
  infinity := "Infinity"
  negativeInfinity := "-Infinity"

/-- Numbers in the compact style: an exponent has no leading zeros, a half goes to the even
neighbour, and what is not finite is a null. -/
def compactLayout : Layout where
  positional e := -5 ≤ e ∧ e < 16
  exponentWidth := 1
  tie := .even
  nan := "null"
  infinity := "null"
  negativeInfinity := "null"

/-- How a style lays out numbers. -/
def layout : Style → Layout
  | spaced => spacedLayout
  | compact => compactLayout

/-- What stands between two items or members. -/
def itemSeparator : Style → Text
  | spaced => [',', ' ']
  | compact => [',']

/-- What stands between a key and its value. -/
def keySeparator : Style → Text
  | spaced => [':', ' ']
  | compact => [':']

theorem ofName?_name (style : Style) : ofName? style.name.toList = some style := by
  cases style <;> decide

end Style

end QueryLabel
