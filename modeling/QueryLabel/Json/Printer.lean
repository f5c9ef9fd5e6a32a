import QueryLabel.Json.Basic
import QueryLabel.Style

/-!
Writing JSON.  Both styles escape quotes, backslashes and controls; the spaced style also writes
every character beyond printable ASCII as UTF-16 units, and spells numbers anew: whole ones digit
for digit, all others by their binary64 value.
-/

namespace QueryLabel.Json

/-- A `\u` escape with four hexadecimal digits. -/
def unitEscape (unit : Nat) : Text :=
  let digits := Text.hexadecimal unit
  '\\' :: 'u' :: (List.replicate (4 - digits.length) '0' ++ digits)

/-- The UTF-16 units of a character: one below U+10000, else two. -/
def utf16Units (c : Char) : List Nat :=
  let n := c.toNat
  if n < 0x10000 then [n]
  else [0xD800 + (n - 0x10000) / 0x400, 0xDC00 + (n - 0x10000) % 0x400]

/-- A character in printable ASCII: characters from U+007F on as escapes, all others as they
are. -/
def asciiForm (c : Char) : Text :=
  if c.toNat < 0x7F then [c] else (utf16Units c).flatMap unitEscape

/-- A text in printable ASCII, character by character.  Quotes, backslashes and controls are left
alone. -/
def asciiText (text : Text) : Text :=
  text.flatMap asciiForm

/-- The escapes that every style needs. -/
def neededEscape? (c : Char) : Option Text :=
  if c = '"' then some ['\\', '"']
  else if c = '\\' then some ['\\', '\\']
  else if c = '\n' then some ['\\', 'n']
  else if c = '\r' then some ['\\', 'r']
  else if c = '\t' then some ['\\', 't']
  else if c.toNat = 0x08 then some ['\\', 'b']
  else if c.toNat = 0x0C then some ['\\', 'f']
  else if c.toNat < 0x20 then some (unitEscape c.toNat)
  else none

/-- One character of a string. -/
def escapeChar (style : Style) (c : Char) : Text :=
  match neededEscape? c with
  | some escape => escape
  | none =>
      match style with
      | .spaced => asciiForm c
      | .compact => [c]

/-- A string between quotes. -/
def renderString (style : Style) (text : Text) : Text :=
  '"' :: text.flatMap (escapeChar style) ++ ['"']

/-- A literal without a point and an exponent spells a whole number. -/
def isWhole (literal : Text) : Bool :=
  literal.all fun c => c ≠ '.' ∧ c ≠ 'e' ∧ c ≠ 'E'

/-- A whole number is written as it is, except that zero has no sign and no further digits. -/
def spellWhole (literal : Text) : Text :=
  if (literal.dropWhile (· = '-')).all (· = '0') then ['0'] else literal

/-- A number literal spelled anew: whole numbers digit for digit, all others as the nearest
binary64 number.  A text that is no decimal literal cannot be spelled. -/
def spellNumber? (literal : Text) : Option Text :=
  if isWhole literal then some (spellWhole literal)
  else (Binary64.readLiteral? literal).map Style.spacedLayout.write

/-- The text of a number literal in a style, if it has one. -/
def numberText? (style : Style) (literal : Text) : Option Text :=
  match style with
  | .spaced => spellNumber? literal
  | .compact => some literal

/-- The text of a number literal in a style; one that cannot be spelled stays. -/
def renderNumber (style : Style) (literal : Text) : Text :=
  (numberText? style literal).getD literal

mutual

/-- The text of a value. -/
def render (style : Style) : Json → Text
  | .null => "null".toList
  | .bool true => "true".toList
  | .bool false => "false".toList
  | .number literal => renderNumber style literal
  | .string text => renderString style text
  | .array items => '[' :: renderItems style items ++ [']']
  | .object members => '{' :: renderMembers style members ++ ['}']
termination_by structural value => value

/-- The items of an array with separators between them. -/
def renderItems (style : Style) : List Json → Text
  | [] => []
  | [item] => render style item
  | item :: next :: rest =>
      render style item ++ style.itemSeparator ++ renderItems style (next :: rest)
termination_by structural items => items

/-- A key and its value. -/
def renderMember (style : Style) : Text × Json → Text
  | (key, value) => renderString style key ++ style.keySeparator ++ render style value
termination_by structural member => member

/-- The members of an object with separators between them. -/
def renderMembers (style : Style) : List (Text × Json) → Text
  | [] => []
  | [member] => renderMember style member
  | member :: next :: rest =>
      renderMember style member ++ style.itemSeparator ++ renderMembers style (next :: rest)
termination_by structural members => members

end

mutual

/-- Every number in a value can be spelled in a style. -/
def spellable (style : Style) : Json → Bool
  | .null => true
  | .bool _ => true
  | .number literal => (numberText? style literal).isSome
  | .string _ => true
  | .array items => spellableItems style items
  | .object members => spellableMembers style members
termination_by structural value => value

/-- Every number in the items can be spelled. -/
def spellableItems (style : Style) : List Json → Bool
  | [] => true
  | item :: rest => spellable style item && spellableItems style rest
termination_by structural items => items

/-- Every number in the value of a member can be spelled. -/
def spellableMember (style : Style) : Text × Json → Bool
  | (_, value) => spellable style value
termination_by structural member => member

/-- Every number in the members can be spelled. -/
def spellableMembers (style : Style) : List (Text × Json) → Bool
  | [] => true
  | member :: rest => spellableMember style member && spellableMembers style rest
termination_by structural members => members

end

example : render .spaced (.object [(['a'], .array [.number ['1'], .null])]) =
    "\x7b\"a\": [1, null]\x7d".toList := by
  decide

end QueryLabel.Json
