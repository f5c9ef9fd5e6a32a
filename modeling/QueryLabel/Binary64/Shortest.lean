import QueryLabel.Binary64.Nearest
import QueryLabel.Text.Basic

/-!
The shortest decimal that reads back.  Every finite number other than zero is the nearest one to
all decimals of an interval around it; among those with the fewest digits the one nearest to the
number is its decimal.
-/

namespace QueryLabel

/-- Which of two equally near decimals is taken. -/
inductive Tie
  | up
  | even
deriving Repr, DecidableEq

/-- A positive decimal `d * 10^exponent`, where `d` is the number that the digits spell with a
point behind the first one. -/
structure Decimal where
  digits : Text
  exponent : Int
deriving Repr, DecidableEq

namespace Magnitude

/-- The decimals below are counted in units so small that all of them, and the ends of the
interval, are whole: a quarter of 2^-1074, divided by `tenPow offset`. -/
def offset : Nat := 400

/-- A magnitude in those small units. -/
def fine (size : Magnitude) : Nat :=
  4 * size.units * tenPow offset

/-- The distance from a magnitude down to where the next one below takes over: half a step, or a
quarter at a power of two, where the numbers below are twice as dense. -/
def below (size : Magnitude) : Nat :=
  if size.mantissa = 0x10000000000000 ∧ 1 < size.step then size.step else 2 * size.step

/-- Whether a decimal, in small units, reads back as the magnitude.  The ends of the interval
belong to it exactly when the mantissa is even. -/
def readsBack (size : Magnitude) (fine : Nat) : Bool :=
  let low := (4 * size.units - size.below) * tenPow offset
  let high := (4 * size.units + 2 * size.step) * tenPow offset
  if size.mantissa % 2 = 0 then low ≤ fine ∧ fine ≤ high else low < fine ∧ fine < high

/-- The small units in the power of ten with exponent `power - offset`. -/
def finePower (power : Nat) : Nat :=
  twoPow 1076 * tenPow power

/-- The power of ten, moved by the offset, that the first digit of a magnitude counts. -/
def leadingPower (size : Magnitude) : Nat :=
  (Text.decimal (size.fine / twoPow 1076)).length - 1

/-- The multiple of a grid that is nearest to a magnitude among its two neighbours that read
back. -/
def nearestOnGrid? (tie : Tie) (size : Magnitude) (grid : Nat) : Option Nat :=
  let down := size.fine / grid
  let rest := size.fine % grid
  match size.readsBack (down * grid), size.readsBack ((down + 1) * grid) with
  | false, false => none
  | true, false => some down
  | false, true => some (down + 1)
  | true, true =>
      if 2 * rest < grid then some down
      else if grid < 2 * rest then some (down + 1)
      else
        match tie with
        | .up => some (down + 1)
        | .even => some (if down % 2 = 0 then down else down + 1)

/-- Look for a decimal that reads back, with the last digit at a power of ten, then at the one
below, and so on. -/
def search (tie : Tie) (size : Magnitude) : Nat → Nat → Nat × Nat
  | power, 0 => (size.fine / finePower power, power)
  | power, tries + 1 =>
      match size.nearestOnGrid? tie (finePower power) with
      | some n => (n, power)
      | none => search tie size (power - 1) tries

/-- A text without its trailing zeros. -/
def stripZeros (digits : Text) : Text :=
  (digits.reverse.dropWhile (· = '0')).reverse

/-- The shortest decimal that reads back as a magnitude other than zero.  Seventeen digits are
always enough. -/
def shortest (tie : Tie) (size : Magnitude) : Decimal :=
  let (n, power) := size.search tie size.leadingPower 17
  let digits := Text.decimal n
  ⟨stripZeros digits, (power : Int) - (offset : Int) + (digits.length - 1 : Nat)⟩

end Magnitude

end QueryLabel
