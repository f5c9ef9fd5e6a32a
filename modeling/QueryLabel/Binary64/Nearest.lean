import QueryLabel.Binary64.Basic

/-!
Rounding to binary64: a quotient of whole numbers goes to the nearest magnitude, and from the
middle between two to the one with an even mantissa.
-/

namespace QueryLabel

/-- A quotient, rounded to the nearest whole number, and to an even one from the middle. -/
def roundEven (num den : Nat) : Nat :=
  let q := num / den
  let r := num % den
  if 2 * r < den then q
  else if den < 2 * r then q + 1
  else if q % 2 = 0 then q
  else q + 1

theorem roundEven_le (num den : Nat) : roundEven num den ≤ num / den + 1 := by
  unfold roundEven
  simp only
  split
  · omega
  · split
    · omega
    · split <;> omega

namespace Magnitude

/-- How many of the low bits of a whole number go beyond the 53 most significant ones. -/
def excess (units : Nat) : Nat :=
  units.log2 - 52

theorem div_excess_lt (units : Nat) : units / twoPow (excess units) < 0x20000000000000 := by
  change units / twoPow (excess units) < twoPow 53
  rw [Nat.div_lt_iff_lt_mul (twoPow_pos _), ← twoPow_add]
  by_cases hzero : units = 0
  · rw [hzero]
    exact twoPow_pos _
  · rw [← log2_lt_iff hzero]
    unfold excess
    omega

/-- The mantissa of the quotient `num / den` when it is counted in steps of `twoPow excess`
units. -/
def roundedMantissa (num den : Nat) : Nat :=
  roundEven (num * twoPow 1074) (den * twoPow (excess (num * twoPow 1074 / den)))

theorem roundedMantissa_le (num den : Nat) : roundedMantissa num den ≤ 0x20000000000000 := by
  unfold roundedMantissa
  refine Nat.le_trans (roundEven_le _ _) ?_
  rw [← Nat.div_div_eq_div_mul]
  exact div_excess_lt _

/-- The magnitude nearest to `num / den`; nothing if that is 2^1024 or more. -/
def nearest? (num den : Nat) : Option Magnitude :=
  scale? (roundedMantissa num den) (roundedMantissa_le num den)
    (excess (num * twoPow 1074 / den))

end Magnitude

namespace Binary64

/-- The number nearest to `num / den` with a sign; infinite from 2^1024 on. -/
def nearest (negative : Bool) (num den : Nat) : Binary64 :=
  (Magnitude.nearest? num den).elim (.infinite negative) (.finite negative)

example : nearest false 1 10 = .ofBits 0x3FB999999999999A := by decide +kernel
example : nearest true 0 1 = .zero true := by decide +kernel

end Binary64

end QueryLabel
