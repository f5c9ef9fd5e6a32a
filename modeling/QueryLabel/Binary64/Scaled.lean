import QueryLabel.Binary64.Nearest

/-!
Reading by scaling: a whole number of at most 64 bits is rounded to binary64 first, and then
multiplied or divided by powers of ten that are rounded themselves.  The result can differ from
the nearest number in its last bits.
-/

namespace QueryLabel

namespace Magnitude

/-- The product of two magnitudes, rounded; nothing if it is 2^1024 or more. -/
def mul? (a b : Magnitude) : Option Magnitude :=
  nearest? (a.units * b.units) (twoPow 2148)

/-- The quotient of two magnitudes, rounded; nothing if it is 2^1024 or more. -/
def div? (a b : Magnitude) : Option Magnitude :=
  nearest? a.units b.units

/-- A magnitude times a power of ten up to 10^308, or divided by one. -/
def scaleOnce? (size : Magnitude) : Int → Option Magnitude
  | .ofNat e => (nearest? (tenPow e) 1).bind size.mul?
  | .negSucc e => (nearest? (tenPow (e + 1)) 1).bind size.div?

/-- A magnitude times a power of ten.  Divisors beyond 10^308 are taken off 10^308 at a time, until
nothing is left to divide; there are at most `tries` of them. -/
def scale10? (size : Magnitude) (exponent : Int) : Nat → Option Magnitude
  | 0 => size.scaleOnce? exponent
  | tries + 1 =>
      if exponent.natAbs ≤ 308 then size.scaleOnce? exponent
      else if size.units = 0 then some size
      else if 0 ≤ exponent then none
      else (size.scaleOnce? (-308)).bind fun smaller => smaller.scale10? (exponent + 308) tries

end Magnitude

namespace Binary64

/-- The number `significand * 10^exponent` by scaling; nothing if it is out of range. -/
def ofScaled? (negative : Bool) (significand : Nat) (exponent : Int) : Option Binary64 := do
  let size ← Magnitude.nearest? significand 1
  let scaled ← size.scale10? exponent (exponent.natAbs / 308)
  some (.finite negative scaled)

example : ofScaled? true 5 (-1) = some (.ofBits 0xBFE0000000000000) := by decide +kernel
example : ofScaled? false 1 309 = none := by decide +kernel

end Binary64

end QueryLabel
