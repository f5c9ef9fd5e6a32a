import QueryLabel.Binary64.Literal
import QueryLabel.Binary64.Shortest

/-!
Writing binary64 numbers.  The digits are the shortest that read back; a layout decides where the
point stands, when an exponent is written and how, and the words for what is not finite.
-/

namespace QueryLabel

/-- The decisions of a format: for which exponents digits are written positionally, the least
width of an exponent, which of two equally near decimals is taken, and three words. -/
structure Layout where
  positional : Int → Bool
  exponentWidth : Nat
  tie : Tie
  nan : String
  infinity : String
  negativeInfinity : String

namespace Layout

/-- Digits with a point, and at least one digit on either side of it. -/
def positionalText (decimal : Decimal) : Text :=
  match decimal.exponent with
  | .negSucc e => '0' :: '.' :: (List.replicate e '0' ++ decimal.digits)
  | .ofNat e =>
      let whole := decimal.digits.take (e + 1)
      let fraction := decimal.digits.drop (e + 1)
      whole ++ List.replicate (e + 1 - decimal.digits.length) '0' ++
        '.' :: (if fraction = [] then ['0'] else fraction)

/-- Digits with a point behind the first one, if there are more, and an exponent with its sign. -/
def scientificText (width : Nat) (decimal : Decimal) : Text :=
  let power := Text.decimal decimal.exponent.natAbs
  let sign := if decimal.exponent < 0 then '-' else '+'
  let mantissa :=
    match decimal.digits with
    | first :: second :: rest => first :: '.' :: second :: rest
    | digits => digits
  mantissa ++ 'e' :: sign :: (List.replicate (width - power.length) '0' ++ power)

/-- A positive decimal in this layout. -/
def writeDecimal (layout : Layout) (decimal : Decimal) : Text :=
  if layout.positional decimal.exponent then positionalText decimal
  else scientificText layout.exponentWidth decimal

/-- The text of a number in this layout. -/
def write (layout : Layout) : Binary64 → Text
  | .nan => layout.nan.toList
  | .infinite false => layout.infinity.toList
  | .infinite true => layout.negativeInfinity.toList
  | .finite negative size =>
      (if negative then ['-'] else []) ++
        if size.units = 0 then ['0', '.', '0']
        else layout.writeDecimal (size.shortest layout.tie)

end Layout

end QueryLabel
