/-!
Texts as lists of characters, the form in which documents are read and written.
-/

namespace QueryLabel

/-- A text, character by character. -/
abbrev Text := List Char

namespace Text

/-- The byte that spells an ASCII character. -/
def ascii (c : Char) : UInt8 :=
  c.toNat.toUInt8

/-- Small letters for the capitals A to Z; every other character stays. -/
def lowerAscii (text : Text) : Text :=
  text.map Char.toLower

/-- Decimal digits of a number, most significant first, without leading zeros. -/
def decimal (n : Nat) : Text :=
  Nat.toDigits 10 n

/-- Hexadecimal digits of a number, most significant first, without leading zeros. -/
def hexadecimal (n : Nat) : Text :=
  Nat.toDigits 16 n

/-- The number that a row of decimal digits denotes, most significant first. -/
def readDecimal (text : Text) : Nat :=
  text.foldl (fun acc c => acc * 10 + (c.toNat - '0'.toNat)) 0

/-- The value of a hexadecimal digit in either case. -/
def hexDigit? (c : Char) : Option Nat :=
  if c.isDigit then some (c.toNat - '0'.toNat)
  else if 'a' ≤ c ∧ c ≤ 'f' then some (c.toNat - 'a'.toNat + 10)
  else if 'A' ≤ c ∧ c ≤ 'F' then some (c.toNat - 'A'.toNat + 10)
  else none

example : decimal 120 = ['1', '2', '0'] := by decide
example : readDecimal ['1', '2', '0'] = 120 := by decide
example : hexDigit? 'B' = some 11 := by decide

end Text

end QueryLabel
