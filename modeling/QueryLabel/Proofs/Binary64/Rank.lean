import Mathlib.Algebra.Order.Field.Rat
import Mathlib.Tactic.FieldSimp
import Mathlib.Tactic.Linarith
import Mathlib.Tactic.Positivity
import Mathlib.Tactic.Ring
import QueryLabel.Proofs.Binary64.Rounding

/-!
Magnitudes by their ranks.  The rank of a magnitude counts the magnitudes below it.  Between two
ranks runs a concave curve of straight pieces, the least of the lines `line k`, and rounding goes
from a point of the curve to the nearest rank (`rank_near_line`); so quotients that are close on the
curve are rounded to magnitudes with close ranks (`exists_nearest?_of_close`).  The bits of a number
are its sign and the rank of its magnitude (`toNat_toBits`).
-/

namespace QueryLabel

theorem twoPow_lt_twoPow {a b : Nat} (h : a < b) : twoPow a < twoPow b :=
  Nat.pow_lt_pow_right (by decide) h

theorem cast_twoPow_pos (k : Nat) : (0 : ℚ) < twoPow k :=
  Nat.cast_pos.mpr (twoPow_pos k)

theorem cast_twoPow_succ (k : Nat) : (twoPow (k + 1) : ℚ) = 2 * twoPow k := by
  rw [Nat.add_comm, twoPow_add, Nat.cast_mul]
  rfl

/-- A quotient is less than half away from the whole number that it is rounded to. -/
theorem roundEven_near (num : Nat) {den : Nat} (hden : 0 < den) :
    2 * num ≤ 2 * (roundEven num den * den) + den ∧
      2 * (roundEven num den * den) ≤ 2 * num + den := by
  have hdiv := Nat.div_add_mod num den
  have hmod := Nat.mod_lt num hden
  have hcomm : den * (num / den) = num / den * den := Nat.mul_comm _ _
  have hsucc : (num / den + 1) * den = num / den * den + den := Nat.succ_mul _ _
  unfold roundEven
  simp only
  split
  · omega
  · split
    · omega
    · split <;> omega

namespace Magnitude

/-- How many magnitudes there are below one. -/
def rank (size : Magnitude) : Nat :=
  excess size.units * 0x10000000000000 + size.mantissa

/-- The rank behind the last one. -/
def rankLimit : Nat := 0x7FF0000000000000

/-- The line through the ranks of the magnitudes that are counted in steps of `twoPow k` units. -/
def line (k : Nat) (q : ℚ) : ℚ :=
  k * 0x10000000000000 + q / twoPow k

/-- The numbers, in units, between the magnitudes that are counted in steps of `twoPow k` units. -/
structure OnPiece (k : Nat) (q : ℚ) : Prop where
  low : k = 0 ∨ 0x10000000000000 * (twoPow k : ℚ) ≤ q
  high : q ≤ 0x20000000000000 * (twoPow k : ℚ)

section Lines

variable {k : Nat} {q : ℚ}

theorem line_succ_sub (k : Nat) (q : ℚ) :
    line (k + 1) q - line k q = 0x10000000000000 - q / (2 * twoPow k) := by
  have hpos := cast_twoPow_pos k
  unfold line
  rw [cast_twoPow_succ]
  push_cast
  field_simp
  ring

theorem line_le_succ (h : q ≤ 0x20000000000000 * (twoPow k : ℚ)) : line k q ≤ line (k + 1) q := by
  have hpos := cast_twoPow_pos k
  have hle : q / (2 * twoPow k) ≤ 0x10000000000000 := by
    rw [div_le_iff₀ (by positivity)]
    linarith
  have hsub := line_succ_sub k q
  linarith

theorem line_succ_le (h : 0x10000000000000 * (twoPow (k + 1) : ℚ) ≤ q) :
    line (k + 1) q ≤ line k q := by
  have hpos := cast_twoPow_pos k
  have hle : 0x10000000000000 ≤ q / (2 * twoPow k) := by
    rw [le_div_iff₀ (by positivity)]
    rwa [cast_twoPow_succ] at h
  have hsub := line_succ_sub k q
  linarith

/-- On its own piece the curve is a line, and that is the least one. -/
theorem OnPiece.line_le (h : OnPiece k q) (j : Nat) : line k q ≤ line j q := by
  have hmono : ∀ i, (twoPow i : ℚ) ≤ twoPow (i + 1) := fun i => by
    have hpos := cast_twoPow_pos i
    rw [cast_twoPow_succ]
    linarith
  rcases Nat.le_total k j with hle | hle
  · obtain ⟨i, rfl⟩ := Nat.exists_eq_add_of_le hle
    have hhigh : ∀ i, q ≤ 0x20000000000000 * (twoPow (k + i) : ℚ) := by
      intro i
      induction i with
      | zero => exact h.high
      | succ i ih =>
          have hstep := hmono (k + i)
          rw [← Nat.add_assoc]
          linarith
    induction i with
    | zero => exact le_rfl
    | succ i ih =>
        rw [← Nat.add_assoc]
        exact (ih (Nat.le_add_right _ _)).trans (line_le_succ (hhigh i))
  · obtain ⟨i, rfl⟩ := Nat.exists_eq_add_of_le hle
    rcases h.low with hzero | hlow
    · have hj : j = 0 := by omega
      have hi : i = 0 := by omega
      rw [hj, hi]
    · clear h hle
      induction i with
      | zero => exact le_rfl
      | succ i ih =>
          rw [← Nat.add_assoc] at hlow ⊢
          have hstep := hmono (j + i)
          exact (line_succ_le hlow).trans (ih (by linarith))

end Lines

/-! ### Rounding -/

/-- The quotient `num / den`, in units. -/
def inUnits (num den : Nat) : ℚ :=
  (num * twoPow 1074 : Nat) / den

/-- A number in units is rounded to `m` steps of `twoPow k` units. -/
structure Rounds (q : ℚ) (k m : Nat) : Prop where
  piece : OnPiece k q
  least : k = 0 ∨ 0x10000000000000 ≤ m
  most : m ≤ 0x20000000000000
  low : q / twoPow k ≤ m + 1 / 2
  high : m ≤ q / twoPow k + 1 / 2

theorem onPiece_excess (num : Nat) {den : Nat} (hden : 0 < den) :
    OnPiece (excess (num * twoPow 1074 / den)) (inUnits num den) := by
  have hpos : (0 : ℚ) < den := Nat.cast_pos.mpr hden
  have hfloor : num * twoPow 1074 / den * den ≤ num * twoPow 1074 := Nat.div_mul_le_self _ _
  have hceil : num * twoPow 1074 < num * twoPow 1074 / den * den + den := Nat.lt_div_mul_add hden
  unfold inUnits
  generalize num * twoPow 1074 = n at *
  generalize hf : n / den = f at *
  constructor
  · by_cases hexcess : excess f = 0
    · exact Or.inl hexcess
    · right
      have hne : f ≠ 0 := by
        rintro rfl
        exact hexcess rfl
      have hlog : 52 + excess f ≤ f.log2 := by
        unfold excess at hexcess ⊢
        omega
      have hle := (le_log2_iff hne _).mp hlog
      rw [twoPow_52_add] at hle
      rw [le_div_iff₀ hpos]
      have hmul : 0x10000000000000 * twoPow (excess f) * den ≤ n :=
        (Nat.mul_le_mul_right den hle).trans hfloor
      exact_mod_cast hmul
  · have hlt : f < 0x20000000000000 * twoPow (excess f) := by
      rw [← twoPow_53_add]
      by_cases hne : f = 0
      · rw [hne]
        exact twoPow_pos _
      · rw [← log2_lt_iff hne]
        unfold excess
        omega
    rw [div_le_iff₀ hpos]
    have hmul : (f + 1) * den ≤ 0x20000000000000 * twoPow (excess f) * den :=
      Nat.mul_le_mul_right den hlt
    rw [Nat.succ_mul] at hmul
    have hle : n ≤ 0x20000000000000 * twoPow (excess f) * den := by omega
    exact_mod_cast hle

/-- How a quotient is rounded. -/
theorem rounds_nearest (num : Nat) {den : Nat} (hden : 0 < den) :
    Rounds (inUnits num den) (excess (num * twoPow 1074 / den)) (roundedMantissa num den) := by
  have hpiece := onPiece_excess num hden
  have hmost := roundedMantissa_le num den
  have hden' : (0 : ℚ) < den := Nat.cast_pos.mpr hden
  have hround := roundEven_near (num * twoPow 1074)
    (Nat.mul_pos hden (twoPow_pos (excess (num * twoPow 1074 / den))))
  change 2 * (num * twoPow 1074) ≤ 2 * (roundedMantissa num den * _) + _ ∧
    2 * (roundedMantissa num den * _) ≤ 2 * (num * twoPow 1074) + _ at hround
  unfold inUnits at hpiece ⊢
  generalize excess (num * twoPow 1074 / den) = k at *
  generalize roundedMantissa num den = m at *
  generalize num * twoPow 1074 = n at *
  have hpow := cast_twoPow_pos k
  obtain ⟨hlow, hhigh⟩ := hround
  have hlow' : (2 * n : ℚ) ≤ 2 * (m * (den * twoPow k)) + den * twoPow k := by
    exact_mod_cast hlow
  have hhigh' : (2 * (m * (den * twoPow k)) : ℚ) ≤ 2 * n + den * twoPow k := by
    exact_mod_cast hhigh
  have hnear : (n : ℚ) / den / twoPow k ≤ m + 1 / 2 := by
    rw [div_div, div_le_iff₀ (by positivity)]
    linarith
  refine ⟨hpiece, ?_, hmost, hnear, ?_⟩
  · refine hpiece.low.imp_right fun hleast => ?_
    -- The quotient has 53 bits in front of the point, and so has what it is rounded to.
    have hq : (0x10000000000000 : ℚ) ≤ n / den / twoPow k := (le_div_iff₀ hpow).mpr hleast
    have hm : (0x10000000000000 : ℚ) < m + 1 := by linarith
    exact Nat.lt_succ_iff.mp (by exact_mod_cast hm)
  · rw [div_div, ← sub_le_iff_le_add, le_div_iff₀ (by positivity)]
    linarith

/-- The rank of so many steps. -/
theorem rank_of_units {size : Magnitude} {k m : Nat} (h : size.units = m * twoPow k)
    (hleast : k = 0 ∨ 0x10000000000000 ≤ m) (hmost : m ≤ 0x20000000000000) :
    size.rank = k * 0x10000000000000 + m := by
  have hpos := twoPow_pos k
  rcases Nat.lt_or_eq_of_le hmost with hlt | rfl
  · have hexcess : excess size.units = k := by
      rcases hleast with rfl | hleast
      · apply excess_of_lt
        rw [h]
        exact (Nat.mul_one m).symm ▸ hlt
      · apply excess_of_bounds
        · rw [twoPow_52_add, h]
          exact Nat.mul_le_mul_right _ hleast
        · rw [twoPow_53_add, h]
          exact Nat.mul_lt_mul_of_pos_right hlt hpos
    have hmantissa : size.mantissa = m := by
      change size.units / twoPow (excess size.units) = m
      rw [hexcess, h, Nat.mul_div_cancel _ hpos]
    rw [rank, hexcess, hmantissa]
  · -- The number of steps has one bit more, so they are counted in pairs.
    have htop : size.units = twoPow (52 + (k + 1)) := by
      rw [h, ← twoPow_53_add]
      congr 1
      omega
    have hexcess : excess size.units = k + 1 := by
      apply excess_of_bounds
      · exact htop.ge
      · rw [htop]
        exact twoPow_lt_twoPow (by omega)
    have hmantissa : size.mantissa = 0x10000000000000 := by
      change size.units / twoPow (excess size.units) = _
      rw [hexcess, htop, twoPow_52_add, Nat.mul_div_cancel _ (twoPow_pos _)]
    rw [rank, hexcess, hmantissa]
    omega

/-! ### Bits -/

theorem rank_lt (size : Magnitude) : size.rank < rankLimit := by
  have hmantissa : size.mantissa < 0x20000000000000 := div_excess_lt size.units
  have hbounded := size.bounded
  unfold rank rankLimit excess
  omega

/-- The largest magnitude, a mantissa of 53 ones in the longest steps. -/
def largest : Magnitude where
  units := 0x1FFFFFFFFFFFFF * twoPow 2045
  short := short_of_le (by decide) 2045
  bounded := by decide +kernel

/-- The magnitude below the largest one. -/
def secondLargest : Magnitude where
  units := 0x1FFFFFFFFFFFFE * twoPow 2045
  short := short_of_le (by decide) 2045
  bounded := by decide +kernel

theorem eq_largest_of_rank {size : Magnitude} (h : rankLimit ≤ size.rank + 2) :
    size = largest ∨ size = secondLargest := by
  have hmantissa : size.mantissa < 0x20000000000000 := div_excess_lt size.units
  have hbounded := size.bounded
  unfold rank rankLimit at h
  have hexcess : excess size.units = 2045 := by
    unfold excess at h ⊢
    omega
  have hstep : size.step = twoPow 2045 := congrArg twoPow hexcess
  have hunits := size.mantissa_mul_step
  rw [hstep] at hunits
  rw [hexcess] at h
  obtain hlast | hlast : size.mantissa = 0x1FFFFFFFFFFFFF ∨ size.mantissa = 0x1FFFFFFFFFFFFE := by
    omega
  · rw [hlast] at hunits
    exact Or.inl (ext hunits.symm)
  · rw [hlast] at hunits
    exact Or.inr (ext hunits.symm)

section Nearest

variable {size : Magnitude} {num den : Nat}

theorem units_of_nearest? (h : nearest? num den = some size) :
    size.units = roundedMantissa num den * twoPow (excess (num * twoPow 1074 / den)) := by
  unfold nearest? scale? at h
  split at h
  · cases h
    rfl
  · contradiction

theorem Rounds.near_line {q : ℚ} {k m : Nat} (h : Rounds q k m) :
    line k q ≤ (k * 0x10000000000000 + m : Nat) + 1 / 2 ∧
      ((k * 0x10000000000000 + m : Nat) : ℚ) ≤ line k q + 1 / 2 := by
  have hlow := h.low
  have hhigh := h.high
  unfold line
  push_cast
  constructor <;> linarith

/-- The rank of a magnitude is the one nearest to the point of the curve from which it was
rounded. -/
theorem rank_near_line (hden : 0 < den) (h : nearest? num den = some size) :
    ∃ k, OnPiece k (inUnits num den) ∧ line k (inUnits num den) ≤ size.rank + 1 / 2 ∧
      (size.rank : ℚ) ≤ line k (inUnits num den) + 1 / 2 := by
  have hrounds := rounds_nearest num hden
  have hrank := rank_of_units (units_of_nearest? h) hrounds.least hrounds.most
  refine ⟨_, hrounds.piece, ?_⟩
  rw [hrank]
  exact hrounds.near_line

/-- What lies below the middle between the last magnitude and 2^1024 is rounded to a magnitude. -/
theorem exists_nearest? (hden : 0 < den) {j : Nat}
    (h : line j (inUnits num den) < rankLimit - 1 / 2) :
    ∃ size, nearest? num den = some size := by
  have hrounds := rounds_nearest num hden
  have hline := hrounds.piece.line_le j
  obtain ⟨-, hnear⟩ := hrounds.near_line
  have hleast := hrounds.least
  have hmost := hrounds.most
  have hbounded : (roundedMantissa num den *
      twoPow (excess (num * twoPow 1074 / den))).log2 < 2098 := by
    generalize excess (num * twoPow 1074 / den) = k at *
    generalize roundedMantissa num den = m at *
    have hrank : k * 0x10000000000000 + m < rankLimit := by
      have hlt : ((k * 0x10000000000000 + m : Nat) : ℚ) < rankLimit := by linarith
      exact_mod_cast hlt
    unfold rankLimit at hrank
    by_cases hzero : m * twoPow k = 0
    · rw [hzero]
      decide
    rw [log2_lt_iff hzero]
    rcases Nat.lt_or_ge k 2045 with hk | hk
    · calc m * twoPow k ≤ 0x20000000000000 * twoPow k := Nat.mul_le_mul_right _ hmost
        _ = twoPow (53 + k) := (twoPow_53_add k).symm
        _ < twoPow 2098 := twoPow_lt_twoPow (by omega)
    · have hk' : k = 2045 := by omega
      subst hk'
      calc m * twoPow 2045 < 0x20000000000000 * twoPow 2045 :=
            Nat.mul_lt_mul_of_pos_right (by omega) (twoPow_pos _)
        _ = twoPow 2098 := (twoPow_53_add 2045).symm
  unfold nearest? scale?
  rw [dif_pos hbounded]
  exact ⟨_, rfl⟩

/-! ### Numbers that are close -/

/-- One number is less than two ranks above another one. -/
def LessAbove (q r : ℚ) : Prop :=
  ∀ k, OnPiece k q → ∃ j, line j r < line k q + 2

/-- Two numbers are less than two ranks apart. -/
def Close (q r : ℚ) : Prop :=
  LessAbove q r ∧ LessAbove r q

/-- The factor between a number and what it is rounded to. -/
def roundingFactor : ℚ := 1 + 1 / 0x20000000000000

/-- Two roundings go up less than two ranks. -/
theorem lessAbove_of_factors {q r : ℚ} (h : r ≤ roundingFactor * roundingFactor * q) :
    LessAbove q r := by
  intro k hpiece
  have hpos := cast_twoPow_pos k
  have hhigh : q / twoPow k ≤ 0x20000000000000 := (div_le_iff₀ hpos).mpr hpiece.high
  have hr : r / twoPow k ≤ roundingFactor * roundingFactor * (q / twoPow k) := by
    rw [← mul_div_assoc]
    exact div_le_div_of_nonneg_right h hpos.le
  unfold roundingFactor at hr
  by_cases hsame : roundingFactor * roundingFactor * (q / twoPow k) ≤ 0x20000000000000
  · unfold roundingFactor at hsame
    refine ⟨k, ?_⟩
    unfold line
    linarith
  · -- The larger number is on the next piece, where ranks are twice as far apart.
    unfold roundingFactor at hsame
    refine ⟨k + 1, ?_⟩
    have hhalf : r / twoPow (k + 1) = r / twoPow k / 2 := by
      rw [cast_twoPow_succ, mul_comm, div_div]
    unfold line
    rw [hhalf]
    push_cast
    linarith

/-- A unit is at most one rank. -/
theorem lessAbove_of_unit {q r : ℚ} (h : r ≤ q + 1) : LessAbove q r := by
  intro k hpiece
  have hpos := cast_twoPow_pos k
  have hone : (1 : ℚ) ≤ twoPow k := by exact_mod_cast twoPow_pos k
  have hle : (r - q) / twoPow k ≤ 1 := by
    rw [div_le_one hpos]
    linarith
  rw [sub_div] at hle
  refine ⟨k, ?_⟩
  unfold line
  linarith

theorem LessAbove.rank_le {q r : ℚ} (h : LessAbove q r) {k j a b : Nat} (hq : OnPiece k q)
    (ha : line k q ≤ a + 1 / 2) (hr : OnPiece j r) (hb : (b : ℚ) ≤ line j r + 1 / 2) :
    b ≤ a + 2 := by
  obtain ⟨i, hi⟩ := h k hq
  have hline := hr.line_le i
  have hlt : (b : ℚ) < (a + 3 : Nat) := by
    push_cast
    linarith
  exact Nat.lt_succ_iff.mp (by exact_mod_cast hlt)

/-- A number that is close to one that is rounded to a magnitude, is rounded to a magnitude at most
two ranks away, unless there is no such one any more. -/
theorem exists_nearest?_of_close {num' den' : Nat} (hden : 0 < den) (hden' : 0 < den')
    (h : nearest? num den = some size) (hclose : Close (inUnits num den) (inUnits num' den'))
    (hlimit : size.rank + 2 < rankLimit) :
    ∃ size', nearest? num' den' = some size' ∧ size'.rank ≤ size.rank + 2 ∧
      size.rank ≤ size'.rank + 2 := by
  obtain ⟨k, hpiece, hhigh, hlow⟩ := rank_near_line hden h
  obtain ⟨j, hj⟩ := hclose.1 k hpiece
  have hlimit' : (size.rank + 3 : ℚ) ≤ rankLimit := by exact_mod_cast hlimit
  have hbelow : line j (inUnits num' den') < rankLimit - 1 / 2 := by linarith
  obtain ⟨size', h'⟩ := exists_nearest? hden' hbelow
  obtain ⟨k', hpiece', hhigh', hlow'⟩ := rank_near_line hden' h'
  exact ⟨size', h', hclose.1.rank_le hpiece hhigh hpiece' hlow',
    hclose.2.rank_le hpiece' hhigh' hpiece hlow⟩

end Nearest

end Magnitude

namespace Binary64

open Magnitude (rankLimit excess)

/-- The bits of a finite number are its sign and the rank of its magnitude. -/
theorem toNat_toBits (negative : Bool) (size : Magnitude) :
    (finite negative size).toBits.toNat = toBits.signBit negative + size.rank := by
  have hrank := size.rank_lt
  have hsign : toBits.signBit negative ≤ 0x8000000000000000 := by cases negative <;> decide
  have hbits : (finite negative size).toBits =
      (toBits.signBit negative + size.rank).toUInt64 := by
    unfold toBits
    simp only
    split
    · next hsmall =>
        have hexcess : excess size.units = 0 := Magnitude.excess_of_lt (by omega)
        have hunits : size.units = size.units * twoPow 0 := (Nat.mul_one _).symm
        rw [Magnitude.rank_of_units hunits (Or.inl rfl) (by omega), Nat.zero_mul, Nat.zero_add]
    · next hlarge =>
        have hsize : size.units ≠ 0 := by omega
        have hlog := (Magnitude.le_log2_iff hsize 52).mpr (Nat.not_lt.mp hlarge)
        have hmantissa : 0x10000000000000 ≤ size.mantissa := by
          rcases size.mantissa_cases hsize with ⟨-, -, hunits, -⟩ | ⟨-, hmantissa, -⟩
          · omega
          · exact hmantissa
        have hsum : (size.units.log2 - 51) * 0x10000000000000 +
            (size.mantissa - 0x10000000000000) = size.rank := by
          unfold Magnitude.rank excess
          omega
        rw [Nat.add_assoc, hsum]
  rw [hbits]
  unfold rankLimit at hrank
  simp only [Nat.toUInt64, UInt64.toNat_ofNat']
  omega

/-- A finite number with the sign of another one, and with bits at most two away. -/
structure Near (x y : Binary64) : Prop where
  finite : y.isFinite = true
  sign : y.toBits.toNat / 0x8000000000000000 = x.toBits.toNat / 0x8000000000000000
  above : y.toBits.toNat ≤ x.toBits.toNat + 2
  below : x.toBits.toNat ≤ y.toBits.toNat + 2

theorem Near.refl {x : Binary64} (h : x.isFinite = true) : Near x x :=
  ⟨h, rfl, Nat.le_add_right _ _, Nat.le_add_right _ _⟩

theorem near_of_rank (negative : Bool) {a b : Magnitude} (habove : b.rank ≤ a.rank + 2)
    (hbelow : a.rank ≤ b.rank + 2) : Near (.finite negative a) (.finite negative b) := by
  have ha := a.rank_lt
  have hb := b.rank_lt
  unfold rankLimit at ha hb
  refine ⟨rfl, ?_, ?_, ?_⟩
  · rw [toNat_toBits, toNat_toBits]
    have hsign : toBits.signBit negative = 0 ∨
        toBits.signBit negative = 0x8000000000000000 := by
      cases negative
      · exact Or.inl rfl
      · exact Or.inr rfl
    omega
  · rw [toNat_toBits, toNat_toBits]
    omega
  · rw [toNat_toBits, toNat_toBits]
    omega

end Binary64

end QueryLabel
