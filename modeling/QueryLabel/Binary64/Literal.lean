import QueryLabel.Binary64.Nearest
import QueryLabel.Text.Basic

/-!
Decimal literals as binary64 numbers: digits with at most one point, perhaps a sign in front and an
exponent behind, rounded to the nearest number.
-/

namespace QueryLabel.Binary64

/-- The number nearest to `significand * 10^exponent` with a sign.  Far outside the range of the
format the answer is known without the power. -/
def ofDecimal (negative : Bool) (significand : Nat) (exponent : Int) : Binary64 :=
  if significand = 0 then .zero negative
  else
    let point := (Text.decimal significand).length + exponent
    if point > 310 then .infinite negative
    else if point < -330 then .zero negative
    else
      match exponent with
      | .ofNat e => nearest negative (significand * tenPow e) 1
      | .negSucc e => nearest negative significand (tenPow (e + 1))

/-- A sign in front of a text: whether it is a minus, and the text behind it. -/
def splitSign : Text → Bool × Text
  | '-' :: rest => (true, rest)
  | '+' :: rest => (false, rest)
  | text => (false, text)

/-- The digits in front of a text, and the text behind them. -/
def splitDigits (text : Text) : Text × Text :=
  (text.takeWhile Char.isDigit, text.dropWhile Char.isDigit)

/-- The exponent behind a significand: none at all counts as zero. -/
def readExponent? : Text → Option Int
  | [] => some 0
  | mark :: rest =>
      if mark = 'e' ∨ mark = 'E' then
        let (negative, digits) := splitSign rest
        if digits ≠ [] ∧ digits.all Char.isDigit then
          let n : Int := Text.readDecimal digits
          some (if negative then -n else n)
        else none
      else none

/-- The number that a decimal literal denotes.  There has to be a digit in front of the exponent;
it may stand on either side of the point. -/
def readLiteral? (literal : Text) : Option Binary64 := do
  let (negative, text) := splitSign literal
  let (whole, rest) := splitDigits text
  let (fraction, rest) :=
    match rest with
    | '.' :: rest => splitDigits rest
    | rest => ([], rest)
  if whole = [] ∧ fraction = [] then none
  else do
    let exponent ← readExponent? rest
    some (ofDecimal negative (Text.readDecimal (whole ++ fraction))
      (exponent - fraction.length))

example : readLiteral? ['-', '.', '5'] = some (.ofBits 0xBFE0000000000000) := by
  decide +kernel
example : readLiteral? ['1', 'e', '4', '0', '0'] = some (.infinite false) := by
  decide +kernel
example : readLiteral? ['.', 'e', '1'] = none := by decide

end QueryLabel.Binary64
