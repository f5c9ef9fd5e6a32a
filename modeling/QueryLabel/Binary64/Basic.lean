import QueryLabel.Power

/-!
Binary64 numbers by their values.  Every finite one is a whole number of units of 2^-1074, with at
most 53 significant bits; the bits of an interchange format are decoded once, here.
-/

namespace QueryLabel

/-- The magnitude of a finite binary64 number, as a multiple of 2^-1074. -/
structure Magnitude where
  units : Nat
  /-- All bits below the 53 most significant ones are zero. -/
  short : twoPow (units.log2 - 52) ∣ units
  /-- It is below 2^1024. -/
  bounded : units.log2 < 2098
deriving DecidableEq

/-- A binary64 number; the ones that are not numbers are not told apart. -/
inductive Binary64
  | nan
  | infinite (negative : Bool)
  | finite (negative : Bool) (size : Magnitude)
deriving DecidableEq

namespace Magnitude

theorem ext {a b : Magnitude} (h : a.units = b.units) : a = b := by
  cases a
  cases b
  simp_all

/-- A number of at most 53 bits, moved to the left, keeps at most 53 significant bits. -/
theorem short_of_le {m : Nat} (hm : m ≤ 0x20000000000000) (s : Nat) :
    twoPow ((m * twoPow s).log2 - 52) ∣ m * twoPow s := by
  by_cases hzero : m = 0
  · simp [hzero]
  have hne : m * twoPow s ≠ 0 := Nat.mul_ne_zero hzero (Nat.ne_of_gt (twoPow_pos s))
  rcases Nat.lt_or_eq_of_le hm with hlt | heq
  · have hlog : (m * twoPow s).log2 < 53 + s := by
      rw [log2_lt_iff hne, twoPow_add]
      exact Nat.mul_lt_mul_of_pos_right hlt (twoPow_pos s)
    exact Nat.dvd_trans (twoPow_dvd_twoPow (by omega)) (Nat.dvd_mul_left _ _)
  · have hpow : m * twoPow s = twoPow (53 + s) := by
      rw [heq, twoPow_add]
      rfl
    rw [hpow, log2_twoPow]
    exact twoPow_dvd_twoPow (by omega)

/-- Zero. -/
def zero : Magnitude := ⟨0, by decide, by decide⟩

instance : Inhabited Magnitude := ⟨zero⟩

/-- The number of units in the last place: the distance to the next magnitude above, or below
inside the same power of two. -/
def step (size : Magnitude) : Nat :=
  twoPow (size.units.log2 - 52)

/-- The 53 bits that matter, as a whole number. -/
def mantissa (size : Magnitude) : Nat :=
  size.units / size.step

/-- The magnitude with this mantissa of at most 53 bits, times a power of two, if it is below
2^1024. -/
def scale? (m : Nat) (hm : m ≤ 0x20000000000000) (s : Nat) : Option Magnitude :=
  if h : (m * twoPow s).log2 < 2098 then some ⟨m * twoPow s, short_of_le hm s, h⟩ else none

theorem mantissa_mul_step (size : Magnitude) : size.mantissa * size.step = size.units :=
  Nat.div_mul_cancel size.short

end Magnitude

namespace Binary64

/-- Zero with a sign. -/
def zero (negative : Bool) : Binary64 := .finite negative .zero

/-- Neither infinite nor no number at all. -/
def isFinite : Binary64 → Bool
  | finite _ _ => true
  | nan | infinite _ => false

/-- The number that 64 bits of the interchange format stand for. -/
def ofBits (bits : UInt64) : Binary64 :=
  let negative := bits.toNat / 0x8000000000000000 = 1
  let exponent := bits.toNat / 0x10000000000000 % 0x800
  let fraction := bits.toNat % 0x10000000000000
  have hfraction : fraction < 0x10000000000000 := Nat.mod_lt _ (by decide)
  if exponent = 0x7FF then
    if fraction = 0 then .infinite negative else .nan
  else if exponent = 0 then
    match Magnitude.scale? fraction (by omega) 0 with
    | some size => .finite negative size
    | none => .nan
  else
    match Magnitude.scale? (0x10000000000000 + fraction) (by omega) (exponent - 1) with
    | some size => .finite negative size
    | none => .nan

/-- The bits of the interchange format that stand for a number; a quiet one for what is not a
number. -/
def toBits : Binary64 → UInt64
  | nan => 0x7FF8000000000000
  | infinite negative => (signBit negative + 0x7FF0000000000000).toUInt64
  | finite negative size =>
      if size.units < 0x10000000000000 then (signBit negative + size.units).toUInt64
      else (signBit negative + (size.units.log2 - 51) * 0x10000000000000 +
        (size.mantissa - 0x10000000000000)).toUInt64
where
  /-- The sign as the top bit. -/
  signBit (negative : Bool) : Nat := if negative then 0x8000000000000000 else 0

example : (ofBits 0x4008000000000000).toBits = 0x4008000000000000 := by decide +kernel
example : (ofBits 0x8000000000000001).toBits = 0x8000000000000001 := by decide +kernel
example : ofBits 0x7FF0000000000001 = .nan := by decide +kernel

end Binary64

end QueryLabel
