import QueryLabel.Binary64.Scaled
import QueryLabel.Proofs.Binary64.Literal
import QueryLabel.Proofs.Binary64.Rank

/-!
Reading by scaling.  A significand and a power of ten are each off by one rounding, and so is what
they are multiplied or divided to, so the number that is read is at most two ranks from the nearest
one (`exists_ofScaled?`); where the significand and the power are exact, it is the nearest one
(`ofScaled?_exact`).
-/

namespace QueryLabel

namespace Magnitude

variable {size : Magnitude} {num den n e : Nat}

/-- The units in one, as a rational number. -/
theorem inUnits_eq (num den : Nat) : inUnits num den = num * twoPow 1074 / den := by
  rw [inUnits, Nat.cast_mul]

/-! ### The error of one rounding -/

/-- A number is rounded to a whole number of steps of `twoPow k` units, by half a step at most. -/
structure RoundsTo (q : ℚ) (k : Nat) (size : Magnitude) : Prop where
  low : k = 0 ∨ 0x10000000000000 * (twoPow k : ℚ) ≤ q
  least : k = 0 ∨ 0x10000000000000 * (twoPow k : ℚ) ≤ size.units
  most : (size.units : ℚ) ≤ 0x20000000000000 * twoPow k
  above : (size.units : ℚ) ≤ q + twoPow k / 2
  below : q ≤ size.units + twoPow k / 2

theorem exists_roundsTo (hden : 0 < den) (h : nearest? num den = some size) :
    ∃ k, RoundsTo (inUnits num den) k size := by
  obtain ⟨hpiece, hleast, hmost, hlow, hhigh⟩ := rounds_nearest num hden
  have hunits := units_of_nearest? h
  generalize excess (num * twoPow 1074 / den) = k at *
  generalize roundedMantissa num den = m at *
  have hpos := cast_twoPow_pos k
  rw [div_le_iff₀ hpos] at hlow
  rw [← sub_le_iff_le_add, le_div_iff₀ hpos] at hhigh
  refine ⟨k, hpiece.low, ?_, ?_, ?_, ?_⟩
  · rw [hunits, Nat.cast_mul]
    exact hleast.imp_right fun hle =>
      mul_le_mul_of_nonneg_right (by exact_mod_cast hle) hpos.le
  · rw [hunits, Nat.cast_mul]
    exact mul_le_mul_of_nonneg_right (by exact_mod_cast hmost) hpos.le
  · rw [hunits, Nat.cast_mul]
    linarith
  · rw [hunits, Nat.cast_mul]
    linarith

theorem cast_twoPow_zero : (twoPow 0 : ℚ) = 1 := rfl

/-- Steps of more than one unit are short beside the number, and so are steps of one unit if the
number is large. -/
theorem RoundsTo.step_le {q : ℚ} {k : Nat} (h : RoundsTo q k size)
    (hlarge : 0x10000000000000 ≤ q) : 0x10000000000000 * (twoPow k : ℚ) ≤ q := by
  rcases h.low with rfl | hlow
  · rw [cast_twoPow_zero]
    linarith
  · exact hlow

/-- One rounding changes a number of at least 2^52 units by a factor. -/
theorem factor_of_nearest? (hden : 0 < den) (h : nearest? num den = some size)
    (hlarge : 0x10000000000000 ≤ inUnits num den) :
    size.units ≤ roundingFactor * inUnits num den ∧
      inUnits num den ≤ roundingFactor * size.units := by
  obtain ⟨k, hrounds⟩ := exists_roundsTo hden h
  have hstep := hrounds.step_le hlarge
  obtain ⟨-, hleast, -, habove, hbelow⟩ := hrounds
  have hsize : 0x10000000000000 * (twoPow k : ℚ) ≤ size.units := by
    rcases hleast with rfl | hleast
    · rw [cast_twoPow_zero] at hbelow ⊢
      have hlt : (0x10000000000000 : ℚ) < (size.units + 1 : Nat) := by
        push_cast
        linarith
      have hle : 0x10000000000000 ≤ size.units := Nat.lt_succ_iff.mp (by exact_mod_cast hlt)
      rw [mul_one]
      exact_mod_cast hle
    · exact hleast
  unfold roundingFactor
  constructor <;> linarith

/-- One rounding changes any number by half a unit or by a factor. -/
theorem near_of_nearest? (hden : 0 < den) (h : nearest? num den = some size) :
    (size.units : ℚ) ≤ inUnits num den + 1 / 2 + inUnits num den / 0x20000000000000 ∧
      inUnits num den ≤ size.units + 1 / 2 + inUnits num den / 0x20000000000000 := by
  obtain ⟨k, hlow, -, -, habove, hbelow⟩ := exists_roundsTo hden h
  have hnonneg : 0 ≤ inUnits num den := div_nonneg (Nat.cast_nonneg _) (Nat.cast_nonneg _)
  have hstep : (twoPow k : ℚ) / 2 ≤ 1 / 2 + inUnits num den / 0x20000000000000 := by
    rcases hlow with rfl | hlow
    · rw [cast_twoPow_zero]
      linarith
    · linarith
  constructor <;> linarith

/-- A quotient that is a magnitude is not changed. -/
theorem nearest?_exact (hsize : size.units ≠ 0) (hden : 0 < den)
    (h : size.units * den = num * twoPow 1074) : nearest? num den = some size := by
  have hstep := size.step_pos
  have hbelow : 0 < size.below := by
    unfold below
    split <;> omega
  have hpos : 0 < size.below * den := Nat.mul_pos hbelow hden
  have hpos' : 0 < size.step * den := Nat.mul_pos hstep hden
  apply nearest?_of_within hsize hden
  exact ⟨by omega, by omega, Or.inr ⟨by omega, by omega⟩⟩

/-! ### Significands and powers -/

/-- A number of at most 53 bits, with a scale, is a magnitude. -/
theorem exists_magnitude {m s : Nat} (hm : m ≤ 0x20000000000000) (hs : s < 2045) :
    ∃ size : Magnitude, size.units = m * twoPow s := by
  have hbounded : (m * twoPow s).log2 < 2098 := by
    by_cases hzero : m * twoPow s = 0
    · rw [hzero]
      decide
    · rw [log2_lt_iff hzero]
      calc m * twoPow s ≤ 0x20000000000000 * twoPow s := Nat.mul_le_mul_right _ hm
        _ = twoPow (53 + s) := (twoPow_53_add s).symm
        _ < twoPow 2098 := twoPow_lt_twoPow (by omega)
  exact ⟨⟨m * twoPow s, short_of_le hm s, hbounded⟩, rfl⟩

theorem exists_nearest?_of_le (hden : 0 < den)
    (h : num * twoPow 1074 ≤ 0x1FFFFFFFFFFFFF * twoPow 2045 * den) :
    ∃ size, nearest? num den = some size := by
  apply exists_nearest? hden (j := 2045)
  have hpos := cast_twoPow_pos 2045
  have hden' : (0 : ℚ) < den := Nat.cast_pos.mpr hden
  have hle : inUnits num den / twoPow 2045 ≤ 0x1FFFFFFFFFFFFF := by
    rw [div_le_iff₀ hpos, inUnits, div_le_iff₀ hden']
    exact_mod_cast h
  unfold line rankLimit
  push_cast
  linarith

/-- A whole number that is rounded. -/
structure RoundedWhole (n : Nat) (size : Magnitude) : Prop where
  nearest : nearest? n 1 = some size
  le : (size.units : ℚ) ≤ roundingFactor * (n * twoPow 1074)
  ge : (n * twoPow 1074 : ℚ) ≤ roundingFactor * size.units

theorem exists_roundedWhole (hn : n ≠ 0) (h : n ≤ tenPow 308) :
    ∃ size, RoundedWhole n size := by
  have hlarge : tenPow 308 * twoPow 1074 ≤ 0x1FFFFFFFFFFFFF * twoPow 2045 * 1 := by
    decide +kernel
  obtain ⟨size, hsize⟩ : ∃ size, nearest? n 1 = some size :=
    exists_nearest?_of_le Nat.one_pos ((Nat.mul_le_mul_right _ h).trans hlarge)
  have hone : inUnits n 1 = n * twoPow 1074 := by
    rw [inUnits_eq, Nat.cast_one, div_one]
  have hunits : (0x10000000000000 : ℚ) ≤ n * twoPow 1074 := by
    have hle : 0x10000000000000 ≤ n * twoPow 1074 := by
      have hpow : 0x10000000000000 ≤ twoPow 1074 := by decide +kernel
      exact hpow.trans (Nat.le_mul_of_pos_left _ (Nat.pos_of_ne_zero hn))
    exact_mod_cast hle
  obtain ⟨hle, hge⟩ := factor_of_nearest? Nat.one_pos hsize (by rwa [hone])
  rw [hone] at hle hge
  exact ⟨size, hsize, hle, hge⟩

/-- A whole number of at most 53 bits, times a power of two, is not changed. -/
theorem nearest?_whole {m s : Nat} (hm : m ≤ 0x20000000000000) (hs : s < 900)
    (hne : m ≠ 0) : ∃ size, nearest? (m * twoPow s) 1 = some size ∧
      size.units = m * twoPow s * twoPow 1074 := by
  obtain ⟨size, hunits⟩ := exists_magnitude hm (show s + 1074 < 2045 by omega)
  rw [twoPow_add, ← Nat.mul_assoc] at hunits
  have hsize : size.units ≠ 0 := by
    rw [hunits]
    exact Nat.mul_ne_zero (Nat.mul_ne_zero hne (twoPow_pos s).ne') (twoPow_pos _).ne'
  exact ⟨size, nearest?_exact hsize Nat.one_pos (by rw [Nat.mul_one, hunits]), hunits⟩

/-- Powers of ten up to 10^22 are not changed. -/
theorem nearest?_tenPow (he : e ≤ 22) :
    ∃ size, nearest? (tenPow e) 1 = some size ∧ size.units = tenPow e * twoPow 1074 := by
  have hsplit : tenPow e = Nat.pow 5 e * twoPow e := Nat.mul_pow 5 2 e
  have hfive : Nat.pow 5 e ≤ 0x20000000000000 :=
    (Nat.pow_le_pow_right (by decide) he).trans (show 5 ^ 22 ≤ 0x20000000000000 by decide)
  rw [hsplit]
  exact nearest?_whole hfive (by omega) (Nat.pow_pos (by decide)).ne'

/-! ### One multiplication or division -/

theorem roundingFactor_pos : 0 < roundingFactor := by
  norm_num [roundingFactor]

section Operations

variable {w : Nat} {a b power : Magnitude}

theorem RoundedWhole.units_pos (h : RoundedWhole n a) (hn : n ≠ 0) : (0 : ℚ) < a.units := by
  have hpos : (0 : ℚ) < n * twoPow 1074 :=
    mul_pos (Nat.cast_pos.mpr (Nat.pos_of_ne_zero hn)) (cast_twoPow_pos _)
  have hge := h.ge
  by_contra hzero
  have hle : roundingFactor * a.units ≤ 0 :=
    mul_nonpos_of_nonneg_of_nonpos roundingFactor_pos.le (not_lt.mp hzero)
  linarith

theorem inUnits_whole (n : Nat) : inUnits n 1 = n * twoPow 1074 := by
  rw [inUnits_eq, Nat.cast_one, div_one]

theorem inUnits_product (a b : Nat) : inUnits (a * b) (twoPow 2148) = a * b / twoPow 1074 := by
  have hpos := cast_twoPow_pos 1074
  rw [inUnits_eq, show 2148 = 1074 + 1074 from rfl, twoPow_add, Nat.cast_mul, Nat.cast_mul,
    mul_div_mul_right _ _ hpos.ne']

/-- The product of two rounded numbers is two roundings away from the product. -/
theorem close_mul (ha : RoundedWhole n a) (hb : RoundedWhole w b) :
    Close (inUnits (n * w) 1) (inUnits (a.units * b.units) (twoPow 2148)) := by
  have hpos := cast_twoPow_pos 1074
  have hF := roundingFactor_pos
  obtain ⟨-, hale, hage⟩ := ha
  obtain ⟨-, hble, hbge⟩ := hb
  rw [inUnits_product, inUnits_whole, Nat.cast_mul]
  generalize (twoPow 1074 : ℚ) = t at *
  have hle := mul_le_mul hale hble (Nat.cast_nonneg _) (by positivity)
  have hge := mul_le_mul hage hbge (by positivity) (by positivity)
  constructor
  · apply lessAbove_of_factors
    rw [div_le_iff₀ hpos]
    linarith
  · apply lessAbove_of_factors
    rw [← mul_div_assoc, le_div_iff₀ hpos]
    linarith

/-- The quotient of two rounded numbers is two roundings away from the quotient. -/
theorem factors_div (hw : w ≠ 0) (ha : RoundedWhole n a) (hb : RoundedWhole w b) :
    inUnits a.units b.units ≤ roundingFactor * roundingFactor * inUnits n w ∧
      inUnits n w ≤ roundingFactor * roundingFactor * inUnits a.units b.units := by
  have hpos := cast_twoPow_pos 1074
  have hF := roundingFactor_pos
  have hb' := hb.units_pos hw
  have hw' : (0 : ℚ) < w := Nat.cast_pos.mpr (Nat.pos_of_ne_zero hw)
  obtain ⟨-, hale, hage⟩ := ha
  obtain ⟨-, hble, hbge⟩ := hb
  rw [inUnits_eq, inUnits_eq]
  generalize (twoPow 1074 : ℚ) = t at *
  have hle := mul_le_mul hale hbge (by positivity) (by positivity)
  have hge := mul_le_mul hage hble (Nat.cast_nonneg _) (by positivity)
  constructor
  · rw [← mul_div_assoc, div_le_div_iff₀ hb' hw']
    linarith
  · rw [← mul_div_assoc, div_le_div_iff₀ hw' hb']
    linarith

theorem close_div (hw : w ≠ 0) (ha : RoundedWhole n a) (hb : RoundedWhole w b) :
    Close (inUnits n w) (inUnits a.units b.units) := by
  obtain ⟨hle, hge⟩ := factors_div hw ha hb
  exact ⟨lessAbove_of_factors hle, lessAbove_of_factors hge⟩

/-! ### Two divisions

The significand, 10^308 and the quotient of the two are rounded before the second division.  These
roundings stay below the two of a single division, because 10^308 is so near to a magnitude, and
because the significand and the quotient cannot both lie just above a power of two. -/

/-- The power 10^308 is rounded by less than a tenth of the greatest error. -/
theorem nearest?_largest :
    ∃ power, nearest? (tenPow 308) 1 = some power ∧
      power.units = 0x11CCF385EBC8A0 * twoPow 2045 := by
  have hvalue : (nearest? (tenPow 308) 1).map units = some (0x11CCF385EBC8A0 * twoPow 2045) := by
    decide +kernel
  exact Option.map_eq_some_iff.mp hvalue

/-- Two roundings in a row, the second one behind a division by 10^308: `n` is rounded to `a` in
steps of `s`, and the quotient to `y` in steps of `s'`, where `f` is the quotient itself. -/
theorem factors_of_steps {n a y f s s' : ℚ} (hupper : a ≤ n + s / 2) (hlower : n ≤ a + s / 2)
    (hstep : 0x10000000000000 * s ≤ n)
    (hupper' : y ≤ a * (0x10000000000000 / 0x11CCF385EBC8A0) + s' / 2)
    (hlower' : a * (0x10000000000000 / 0x11CCF385EBC8A0) ≤ y + s' / 2)
    (hstep' : 0x10000000000000 * s' ≤ a * (0x10000000000000 / 0x11CCF385EBC8A0))
    (hpower : f ≤ n * (0x10000000000000 / 0x11CCF385EBC8A0) * (1 + 1 / 90071992547409920))
    (hpower' : n * (0x10000000000000 / 0x11CCF385EBC8A0) ≤ f * (1 + 1 / 90071992547409920))
    (hs' : 0 < s') (hsteps : s = 0 ∨ s' = s ∨ 2 * s' ≤ s) :
    y ≤ roundingFactor * roundingFactor * f ∧ f ≤ roundingFactor * roundingFactor * y := by
  unfold roundingFactor
  rcases hsteps with rfl | rfl | hsteps
  · constructor <;> linarith
  · constructor <;> linarith
  · constructor <;> linarith

/-- The steps in which a whole number is rounded, or none if it is not changed. -/
theorem exists_steps (hn : n ≠ 0) (ha : nearest? n 1 = some a) :
    ∃ s : ℚ, (a.units : ℚ) ≤ n * twoPow 1074 + s / 2 ∧ (n * twoPow 1074 : ℚ) ≤ a.units + s / 2 ∧
      0x10000000000000 * s ≤ n * twoPow 1074 ∧
      (s = 0 ∨ ∃ k, s = twoPow k ∧ (a.units : ℚ) ≤ 0x20000000000000 * s) := by
  have hpos := cast_twoPow_pos 1074
  by_cases hsmall : n ≤ 0x20000000000000
  · obtain ⟨size, hsize, hunits⟩ := nearest?_whole (s := 0) hsmall (by decide) hn
    have hone : n * twoPow 0 = n := Nat.mul_one n
    rw [hone] at hsize hunits
    rw [ha] at hsize
    cases hsize
    have hcast : (a.units : ℚ) = n * twoPow 1074 := by rw [hunits, Nat.cast_mul]
    have hnonneg : (0 : ℚ) ≤ n * twoPow 1074 := hcast ▸ Nat.cast_nonneg _
    exact ⟨0, by linarith, by linarith, by linarith, Or.inl rfl⟩
  · obtain ⟨k, hrounds⟩ := exists_roundsTo Nat.one_pos ha
    rw [inUnits_whole] at hrounds
    have hlarge : 0x20000000000000 < (n * twoPow 1074 : ℚ) := by
      have hle : n * 1 ≤ n * twoPow 1074 := Nat.mul_le_mul_left n (twoPow_pos _)
      have hlt : 0x20000000000000 < n * twoPow 1074 := by omega
      exact_mod_cast hlt
    exact ⟨twoPow k, hrounds.above, hrounds.below, hrounds.step_le (by linarith),
      Or.inr ⟨k, rfl, hrounds.most⟩⟩

/-- The power 10^308, counted as the steps of quotients by it are. -/
theorem largest_bounds :
    (twoPow 1023 : ℚ) / tenPow 308 ≤
        0x10000000000000 / 0x11CCF385EBC8A0 * (1 + 1 / 90071992547409920) ∧
      0x10000000000000 / 0x11CCF385EBC8A0 ≤
        (twoPow 1023 : ℚ) / tenPow 308 * (1 + 1 / 90071992547409920) := by
  have hten : (0 : ℚ) < tenPow 308 := Nat.cast_pos.mpr (tenPow_pos _)
  have hle : twoPow 1023 * (0x11CCF385EBC8A0 * 90071992547409920) ≤
      0x10000000000000 * 90071992547409921 * tenPow 308 := by decide +kernel
  have hge : 0x10000000000000 * 90071992547409920 * tenPow 308 ≤
      twoPow 1023 * (0x11CCF385EBC8A0 * 90071992547409921) := by decide +kernel
  have hle' : (twoPow 1023 * (0x11CCF385EBC8A0 * 90071992547409920) : ℚ) ≤
      0x10000000000000 * 90071992547409921 * tenPow 308 := by exact_mod_cast hle
  have hge' : (0x10000000000000 * 90071992547409920 * tenPow 308 : ℚ) ≤
      twoPow 1023 * (0x11CCF385EBC8A0 * 90071992547409921) := by exact_mod_cast hge
  generalize (twoPow 1023 : ℚ) = v at *
  generalize (tenPow 308 : ℚ) = t at *
  constructor
  · rw [div_le_iff₀ hten]
    linarith
  · rw [div_mul_eq_mul_div, le_div_iff₀ hten]
    linarith

/-- A quotient by 10^308, multiplied by 2^1023. -/
theorem inUnits_quotient_mul (hpower : nearest? (tenPow 308) 1 = some power) (m : Nat) :
    inUnits m power.units * twoPow 1023 = m * (0x10000000000000 / 0x11CCF385EBC8A0) := by
  obtain ⟨power', hsome, hunits⟩ := nearest?_largest
  rw [hpower] at hsome
  cases hsome
  have hpos := cast_twoPow_pos 2045
  have hsum : twoPow 1074 * twoPow 1023 = 0x10000000000000 * twoPow 2045 := by
    rw [← twoPow_add, ← twoPow_52_add]
  have hsum' : (twoPow 1074 * twoPow 1023 : ℚ) = 0x10000000000000 * twoPow 2045 := by
    exact_mod_cast hsum
  rw [inUnits_eq, hunits, div_mul_eq_mul_div, mul_assoc, hsum', Nat.cast_mul]
  generalize (twoPow 2045 : ℚ) = t at *
  push_cast
  field_simp

/-- Powers of two less than twice apart. -/
theorem steps_of_lt {k i : Nat} (h : (twoPow k * twoPow 1023 : ℚ) < 2 * twoPow i) :
    (twoPow k * twoPow 1023 : ℚ) = twoPow i ∨ 2 * (twoPow k * twoPow 1023 : ℚ) ≤ twoPow i := by
  rw [← cast_twoPow_succ, ← Nat.cast_mul, ← twoPow_add] at h
  rw [← Nat.cast_mul, ← twoPow_add, ← cast_twoPow_succ]
  have hlt : k + 1023 < i + 1 := (Nat.pow_lt_pow_iff_right (by decide)).mp (Nat.cast_lt.mp h)
  rcases Nat.lt_or_eq_of_le (Nat.lt_succ_iff.mp hlt) with hlt | heq
  · exact Or.inr (Nat.cast_le.mpr (Nat.pow_le_pow_right (by decide) hlt))
  · rw [heq]
    exact Or.inl rfl

/-- A rounded number, divided by 10^308 and rounded again, is less than two roundings away from the
quotient. -/
theorem factors_quotient {q : Magnitude} (hn : n ≠ 0) (ha : RoundedWhole n a)
    (hpower : RoundedWhole (tenPow 308) power) (hq : nearest? a.units power.units = some q)
    (hlarge : 0x14000000000000 ≤ inUnits n (tenPow 308)) :
    (q.units : ℚ) ≤ roundingFactor * roundingFactor * inUnits n (tenPow 308) ∧
      inUnits n (tenPow 308) ≤ roundingFactor * roundingFactor * q.units := by
  have hV := cast_twoPow_pos 1023
  have hten : tenPow 308 ≠ 0 := (tenPow_pos 308).ne'
  have hpos : 0 < power.units := Nat.cast_pos.mp (hpower.units_pos hten)
  obtain ⟨-, hge⟩ := factors_div hten ha hpower
  obtain ⟨s, hupper, hlower, hstep, hs⟩ := exists_steps hn ha.nearest
  obtain ⟨k, hrounds⟩ := exists_roundsTo hpos hq
  have hleast := hrounds.step_le (by
    unfold roundingFactor at hge
    linarith)
  obtain ⟨-, -, -, habove, hbelow⟩ := hrounds
  have hk := cast_twoPow_pos k
  obtain ⟨hpowerLe, hpowerGe⟩ := largest_bounds
  -- Everything is multiplied by 2^1023, which takes the steps of the quotient to those of `n`.
  have hquotient : inUnits a.units power.units * twoPow 1023 =
      a.units * (0x10000000000000 / 0x11CCF385EBC8A0) :=
    inUnits_quotient_mul hpower.nearest a.units
  have hexact : inUnits n (tenPow 308) * twoPow 1023 =
      n * twoPow 1074 * (twoPow 1023 / tenPow 308) := by
    rw [inUnits_eq]
    ring
  have hnonneg : (0 : ℚ) ≤ n * twoPow 1074 :=
    mul_nonneg (Nat.cast_nonneg _) (cast_twoPow_pos _).le
  have hsteps : s = 0 ∨ twoPow k * twoPow 1023 = s ∨ 2 * (twoPow k * twoPow 1023) ≤ s := by
    refine hs.imp_right fun ⟨i, hi, hmost⟩ => ?_
    have hless : (twoPow k * twoPow 1023 : ℚ) < 2 * s := by
      have hleast' := mul_le_mul_of_nonneg_right hleast hV.le
      have hs' : 0 < s := hi ▸ cast_twoPow_pos i
      rw [hquotient] at hleast'
      linarith
    rw [hi] at hless ⊢
    exact steps_of_lt hless
  generalize (n * twoPow 1074 : ℚ) = t at *
  generalize inUnits n (tenPow 308) = f at *
  generalize inUnits a.units power.units = x at *
  generalize (twoPow 1023 : ℚ) = v at *
  generalize v / (tenPow 308 : ℚ) = c at *
  have hc := mul_le_mul_of_nonneg_left hpowerLe hnonneg
  have hc' := mul_le_mul_of_nonneg_left hpowerGe hnonneg
  have habove' := mul_le_mul_of_nonneg_right habove hV.le
  have hbelow' := mul_le_mul_of_nonneg_right hbelow hV.le
  have hleast' := mul_le_mul_of_nonneg_right hleast hV.le
  obtain ⟨hle, hge⟩ := @factors_of_steps t a.units (q.units * v) (f * v) s (twoPow k * v) hupper
    hlower hstep (by linarith) (by linarith) (by linarith) (by linarith) (by linarith)
    (mul_pos hk hV) hsteps
  rw [← mul_assoc] at hle hge
  exact ⟨le_of_mul_le_mul_right hle hV, le_of_mul_le_mul_right hge hV⟩

/-- The quotient by 10^308 is not too large. -/
theorem exists_quotient (h : n ≤ tenPow 308) (ha : RoundedWhole n a)
    (hpower : RoundedWhole (tenPow 308) power) :
    ∃ q, nearest? a.units power.units = some q := by
  have hten := (tenPow_pos 308).ne'
  have hten' : (0 : ℚ) < tenPow 308 := Nat.cast_pos.mpr (tenPow_pos 308)
  obtain ⟨hle, -⟩ := factors_div hten ha hpower
  apply exists_nearest? (j := 2045) (Nat.cast_pos.mp (hpower.units_pos hten))
  have hone : inUnits n (tenPow 308) ≤ twoPow 2045 := by
    have hmul : n * twoPow 1074 ≤ twoPow 2045 * tenPow 308 := by
      rw [Nat.mul_comm (twoPow 2045)]
      exact Nat.mul_le_mul h (twoPow_lt_twoPow (by decide)).le
    rw [inUnits, div_le_iff₀ hten']
    exact_mod_cast hmul
  have hpos := cast_twoPow_pos 2045
  have hsmall : inUnits a.units power.units / twoPow 2045 ≤ 2 := by
    rw [div_le_iff₀ hpos]
    unfold roundingFactor at hle
    linarith
  unfold line rankLimit
  push_cast
  linarith

theorem inUnits_tenPow_add (n i j : Nat) :
    inUnits n (tenPow (i + j)) = inUnits n (tenPow i) / tenPow j := by
  rw [inUnits_eq, inUnits_eq, tenPow_add, Nat.cast_mul, div_div]

/-- A number of 17 digits below the middle of the magnitudes is divided by an exact power after
10^308. -/
theorem exact_of_large {j : Nat} (hdigits : n < tenPow 17)
    (hlarge : 0x2000000000000 < inUnits n (tenPow (308 + j))) : j ≤ 22 := by
  by_contra hj
  have hten : (0 : ℚ) < tenPow (308 + j) := Nat.cast_pos.mpr (tenPow_pos _)
  have hbound : tenPow 17 * twoPow 1074 ≤ 0x2000000000000 * tenPow 331 := by decide +kernel
  have hmono : tenPow 331 ≤ tenPow (308 + j) := Text.tenPow_le_tenPow (by omega)
  have hle : n * twoPow 1074 ≤ 0x2000000000000 * tenPow (308 + j) :=
    ((Nat.mul_le_mul_right _ hdigits.le).trans hbound).trans (Nat.mul_le_mul_left _ hmono)
  have hsmall : inUnits n (tenPow (308 + j)) ≤ 0x2000000000000 := by
    rw [inUnits, div_le_iff₀ hten]
    exact_mod_cast hle
  exact absurd hlarge (not_lt.mpr hsmall)

/-- A number divided by 10^308 is large enough to be rounded to many bits. -/
theorem le_inUnits_largest (hn : n ≠ 0) : 0x4000000000000 ≤ inUnits n (tenPow 308) := by
  have hten : (0 : ℚ) < tenPow 308 := Nat.cast_pos.mpr (tenPow_pos _)
  have hone : 0x4000000000000 * tenPow 308 ≤ twoPow 1074 := by decide +kernel
  have hle : 0x4000000000000 * tenPow 308 ≤ n * twoPow 1074 :=
    hone.trans (Nat.le_mul_of_pos_left _ (Nat.pos_of_ne_zero hn))
  rw [inUnits, le_div_iff₀ hten]
  exact_mod_cast hle

/-- A quotient by a rounded number is one rounding away from the quotient by the number. -/
theorem factors_divisor (hw : w ≠ 0) (hb : RoundedWhole w b) (m : Nat) :
    inUnits m b.units ≤ roundingFactor * (m / w) ∧
      (m / w : ℚ) ≤ roundingFactor * inUnits m b.units := by
  have hw' : (0 : ℚ) < w := Nat.cast_pos.mpr (Nat.pos_of_ne_zero hw)
  have hb' := hb.units_pos hw
  have hm : (0 : ℚ) ≤ m := Nat.cast_nonneg _
  have hmul := mul_le_mul_of_nonneg_left hb.ge hm
  have hmul' := mul_le_mul_of_nonneg_left hb.le hm
  rw [inUnits_eq]
  generalize (twoPow 1074 : ℚ) = t at *
  rw [← mul_div_assoc, ← mul_div_assoc, div_le_div_iff₀ hb' hw', div_le_div_iff₀ hw' hb']
  constructor <;> linarith

/-- If the second power is exact, nothing but the quotient by 10^308 counts. -/
theorem close_of_exact {q other : Magnitude} {j : Nat} (hj : j ≠ 0) (hn : n ≠ 0)
    (ha : RoundedWhole n a) (hpower : RoundedWhole (tenPow 308) power)
    (hq : nearest? a.units power.units = some q) (hother : nearest? (tenPow j) 1 = some other)
    (hexact : j ≤ 22) (hlarge : 0x2000000000000 < inUnits n (tenPow 308) / tenPow j) :
    Close (inUnits n (tenPow 308) / tenPow j) (inUnits q.units other.units) := by
  have hten : (0 : ℚ) < tenPow j := Nat.cast_pos.mpr (tenPow_pos j)
  have hT := cast_twoPow_pos 1074
  obtain ⟨exact, hsome, hunits⟩ := nearest?_tenPow hexact
  rw [hother] at hsome
  cases hsome
  have hleast : (10 : ℚ) ≤ tenPow j := by
    exact_mod_cast Text.tenPow_le_tenPow (Nat.one_le_iff_ne_zero.mpr hj)
  have hquotient : 0x14000000000000 ≤ inUnits n (tenPow 308) := by
    rw [lt_div_iff₀ hten] at hlarge
    linarith
  obtain ⟨hle, hge⟩ := factors_quotient hn ha hpower hq hquotient
  have hscaled : inUnits q.units other.units = q.units / tenPow j := by
    rw [inUnits_eq, hunits, Nat.cast_mul, mul_div_mul_right _ _ hT.ne']
  rw [hscaled]
  constructor
  · apply lessAbove_of_factors
    rw [← mul_div_assoc]
    exact div_le_div_of_nonneg_right hle hten.le
  · apply lessAbove_of_factors
    rw [← mul_div_assoc]
    exact div_le_div_of_nonneg_right hge hten.le

/-- If few units are left, all the roundings together do not come to one. -/
theorem close_of_small {q other : Magnitude} {j : Nat} (hn : n ≠ 0) (ha : RoundedWhole n a)
    (hpower : RoundedWhole (tenPow 308) power) (hq : nearest? a.units power.units = some q)
    (hother : RoundedWhole (tenPow j) other)
    (hsmall : inUnits n (tenPow 308) / tenPow j ≤ 0x2000000000000) :
    Close (inUnits n (tenPow 308) / tenPow j) (inUnits q.units other.units) := by
  have hten : (0 : ℚ) < tenPow j := Nat.cast_pos.mpr (tenPow_pos j)
  have hpos : 0 < power.units := Nat.cast_pos.mp (hpower.units_pos (tenPow_pos 308).ne')
  obtain ⟨hfirst, hfirst'⟩ := factors_div (tenPow_pos 308).ne' ha hpower
  obtain ⟨hnear, hnear'⟩ := near_of_nearest? hpos hq
  obtain ⟨hlast, hlast'⟩ := factors_divisor (tenPow_pos j).ne' hother q.units
  have hleast := le_inUnits_largest hn
  generalize inUnits n (tenPow 308) = f at *
  generalize inUnits a.units power.units = x at *
  generalize inUnits q.units other.units = z at *
  generalize (tenPow j : ℚ) = w at *
  generalize (q.units : ℚ) = y at *
  unfold roundingFactor at hfirst hfirst' hlast hlast'
  have hy : y ≤ (1 + 8 / 0x20000000000000) * f ∧ f ≤ (1 + 8 / 0x20000000000000) * y := by
    constructor <;> linarith
  have hd : y / w ≤ (1 + 8 / 0x20000000000000) * (f / w) ∧
      f / w ≤ (1 + 8 / 0x20000000000000) * (y / w) := by
    rw [← mul_div_assoc, ← mul_div_assoc]
    exact ⟨div_le_div_of_nonneg_right hy.1 hten.le, div_le_div_of_nonneg_right hy.2 hten.le⟩
  constructor
  · apply lessAbove_of_unit
    linarith
  · apply lessAbove_of_unit
    linarith

/-- Dividing by 10^308 and then by another power is as good as one division. -/
theorem close_div_twice {q other : Magnitude} {j : Nat} (hj : j ≠ 0) (hn : n ≠ 0)
    (hdigits : n < tenPow 17) (ha : RoundedWhole n a)
    (hpower : RoundedWhole (tenPow 308) power) (hq : nearest? a.units power.units = some q)
    (hother : RoundedWhole (tenPow j) other) :
    Close (inUnits n (tenPow (308 + j))) (inUnits q.units other.units) := by
  by_cases hlarge : 0x2000000000000 < inUnits n (tenPow (308 + j))
  · have hexact := exact_of_large hdigits hlarge
    rw [inUnits_tenPow_add] at hlarge ⊢
    exact close_of_exact hj hn ha hpower hq hother.nearest hexact hlarge
  · rw [inUnits_tenPow_add] at hlarge ⊢
    exact close_of_small hn ha hpower hq hother (not_lt.mp hlarge)

end Operations

/-! ### Exact operations -/

theorem roundEven_mul_right (num den : Nat) {c : Nat} (hc : 0 < c) :
    roundEven (num * c) (den * c) = roundEven num den := by
  have hmod : num * c % (den * c) = num % den * c := Nat.mul_mod_mul_right _ _ _
  have hlow : 2 * (num % den * c) < den * c ↔ 2 * (num % den) < den := by
    rw [← Nat.mul_assoc, Nat.mul_lt_mul_right hc]
  have hhigh : den * c < 2 * (num % den * c) ↔ den < 2 * (num % den) := by
    rw [← Nat.mul_assoc, Nat.mul_lt_mul_right hc]
  unfold roundEven
  simp only [Nat.mul_div_mul_right _ _ hc, hmod, hlow, hhigh]

/-- A quotient is rounded the same in whatever terms it is given. -/
theorem nearest?_mul_right (num den : Nat) {c : Nat} (hc : 0 < c) :
    nearest? (num * c) (den * c) = nearest? num den := by
  have hquotient : num * c * twoPow 1074 / (den * c) = num * twoPow 1074 / den := by
    rw [Nat.mul_right_comm, Nat.mul_div_mul_right _ _ hc]
  have hmantissa : roundedMantissa (num * c) (den * c) = roundedMantissa num den := by
    unfold roundedMantissa
    rw [hquotient, Nat.mul_right_comm, Nat.mul_right_comm den, roundEven_mul_right _ _ hc]
  unfold nearest?
  simp only [hmantissa, hquotient]

theorem nearest?_product (m n : Nat) :
    nearest? (m * twoPow 1074 * (n * twoPow 1074)) (twoPow 2148) = nearest? (m * n) 1 := by
  have hden : twoPow 2148 = 1 * (twoPow 1074 * twoPow 1074) := by
    rw [Nat.one_mul, ← twoPow_add]
  rw [hden, Nat.mul_mul_mul_comm]
  exact nearest?_mul_right _ _ (Nat.mul_pos (twoPow_pos _) (twoPow_pos _))

/-! ### Scaling -/

section Scaling

variable {power : Magnitude} {exponent : Int}

theorem scaleOnce?_ofNat (h : nearest? (tenPow e) 1 = some power) :
    size.scaleOnce? (.ofNat e) = nearest? (size.units * power.units) (twoPow 2148) := by
  rw [scaleOnce?, h, Option.bind_some, mul?]

theorem scaleOnce?_negSucc (h : nearest? (tenPow (e + 1)) 1 = some power) :
    size.scaleOnce? (.negSucc e) = nearest? size.units power.units := by
  rw [scaleOnce?, h, Option.bind_some, div?]

theorem scale10?_once (h : exponent.natAbs ≤ 308) (tries : Nat) :
    size.scale10? exponent tries = size.scaleOnce? exponent := by
  cases tries with
  | zero => rfl
  | succ tries => rw [scale10?, if_pos h]

theorem scale10?_twice (hsize : size.units ≠ 0) (h : 308 < exponent.natAbs)
    (hneg : exponent < 0) :
    size.scale10? exponent 1 =
      (size.scaleOnce? (-308)).bind fun smaller => smaller.scaleOnce? (exponent + 308) := by
  rw [scale10?, if_neg (by omega), if_neg hsize, if_neg (by omega)]
  rfl

end Scaling

end Magnitude

namespace Binary64

open Magnitude

variable {n : Nat} {exponent : Int} {size : Magnitude}

theorem ofScaled?_once (negative : Bool) {a : Magnitude} (ha : Magnitude.nearest? n 1 = some a)
    (h : exponent.natAbs ≤ 308) :
    ofScaled? negative n exponent = (a.scaleOnce? exponent).map (.finite negative) := by
  simp only [ofScaled?, ha, bind, Option.bind_some, scale10?_once h]
  cases a.scaleOnce? exponent <;> rfl

theorem ofScaled?_twice (negative : Bool) {a : Magnitude} (ha : Magnitude.nearest? n 1 = some a)
    (hsize : a.units ≠ 0) (hlow : -616 < exponent) (hhigh : exponent < -308) :
    ofScaled? negative n exponent = ((a.scaleOnce? (-308)).bind fun smaller =>
      smaller.scaleOnce? (exponent + 308)).map (.finite negative) := by
  have htries : exponent.natAbs / 308 = 1 := by omega
  simp only [ofScaled?, ha, bind, Option.bind_some, htries,
    scale10?_twice hsize (show 308 < exponent.natAbs by omega) (by omega)]
  cases (a.scaleOnce? (-308)).bind fun smaller => smaller.scaleOnce? (exponent + 308) <;> rfl

/-- Powers of ten up to 10^308 are rounded to magnitudes. -/
theorem exists_roundedPower {e : Nat} (he : e ≤ 308) :
    ∃ power, RoundedWhole (tenPow e) power :=
  exists_roundedWhole (tenPow_pos e).ne' (Text.tenPow_le_tenPow he)

/-- A divisor beyond 10^308 is split into 10^308 and the rest. -/
theorem exists_ofScaled?_twice (negative : Bool) (hn : n ≠ 0) (hdigits : n < tenPow 17) {j : Nat}
    (hj : j + 1 ≤ 39) (h : nearestDecimal? n (.negSucc (308 + j)) = some size)
    (hlimit : size.rank + 2 < rankLimit) :
    ∃ size', ofScaled? negative n (.negSucc (308 + j)) = some (.finite negative size') ∧
      size'.rank ≤ size.rank + 2 ∧ size.rank ≤ size'.rank + 2 := by
  have hwhole : n ≤ tenPow 308 := hdigits.le.trans (Text.tenPow_le_tenPow (by decide))
  obtain ⟨a, ha⟩ := exists_roundedWhole hn hwhole
  obtain ⟨power, hpower⟩ := exists_roundedPower le_rfl
  obtain ⟨other, hother⟩ := exists_roundedPower (hj.trans (by decide))
  obtain ⟨q, hq⟩ := exists_quotient hwhole ha hpower
  have hpos := Nat.cast_pos.mp (hother.units_pos (tenPow_pos _).ne')
  obtain ⟨size', hsome, hnear⟩ := exists_nearest?_of_close (tenPow_pos _) hpos h
    (close_div_twice j.succ_ne_zero hn hdigits ha hpower hq hother) hlimit
  refine ⟨size', ?_, hnear⟩
  have hrest : Int.negSucc (308 + j) + 308 = .negSucc j := by omega
  have hunits : a.units ≠ 0 := (Nat.cast_pos.mp (ha.units_pos hn)).ne'
  have hfirst : a.scaleOnce? (-308) = some q :=
    (scaleOnce?_negSucc (e := 307) hpower.nearest).trans hq
  rw [ofScaled?_twice negative ha.nearest hunits (by omega) (by omega), hfirst, Option.bind_some,
    hrest, scaleOnce?_negSucc hother.nearest, hsome]
  rfl

/-- Scaling a decimal of at most 17 digits ends at most two ranks from the nearest magnitude,
unless there is no such magnitude any more. -/
theorem exists_ofScaled? (negative : Bool) (hn : n ≠ 0) (hdigits : n < tenPow 17)
    (hlow : -347 ≤ exponent) (hhigh : exponent ≤ 308)
    (h : nearestDecimal? n exponent = some size) (hlimit : size.rank + 2 < rankLimit) :
    ∃ size', ofScaled? negative n exponent = some (.finite negative size') ∧
      size'.rank ≤ size.rank + 2 ∧ size.rank ≤ size'.rank + 2 := by
  obtain ⟨a, ha⟩ := exists_roundedWhole hn
    (hdigits.le.trans (Text.tenPow_le_tenPow (show 17 ≤ 308 by decide)))
  cases exponent with
  | ofNat e =>
      have he : e ≤ 308 := Int.ofNat_le.mp hhigh
      obtain ⟨power, hpower⟩ := exists_roundedPower he
      obtain ⟨size', hsome, hnear⟩ := exists_nearest?_of_close Nat.one_pos (twoPow_pos _) h
        (close_mul ha hpower) hlimit
      refine ⟨size', ?_, hnear⟩
      rw [@ofScaled?_once n (.ofNat e) negative a ha.nearest he, scaleOnce?_ofNat hpower.nearest,
        hsome]
      rfl
  | negSucc e =>
      by_cases honce : e + 1 ≤ 308
      · obtain ⟨power, hpower⟩ := exists_roundedPower honce
        have hten := (tenPow_pos (e + 1)).ne'
        have hpos := Nat.cast_pos.mp (hpower.units_pos hten)
        obtain ⟨size', hsome, hnear⟩ := exists_nearest?_of_close (tenPow_pos _) hpos h
          (close_div hten ha hpower) hlimit
        refine ⟨size', ?_, hnear⟩
        rw [@ofScaled?_once n (.negSucc e) negative a ha.nearest honce,
          scaleOnce?_negSucc hpower.nearest, hsome]
        rfl
      · obtain ⟨j, rfl⟩ : ∃ j, e = 308 + j := ⟨e - 308, by omega⟩
        exact exists_ofScaled?_twice negative hn hdigits (by omega) h hlimit

/-- Scaling a significand of at most 53 bits by a power of ten up to 10^22 ends at the nearest
magnitude, because nothing but the result is rounded. -/
theorem ofScaled?_exact (negative : Bool) (hn : n ≠ 0) (hbits : n ≤ 0x20000000000000)
    (hexponent : exponent.natAbs ≤ 22) (h : nearestDecimal? n exponent = some size) :
    ofScaled? negative n exponent = some (.finite negative size) := by
  obtain ⟨a, ha, hunits⟩ := nearest?_whole (s := 0) hbits (by decide) hn
  have hone : n * twoPow 0 = n := Nat.mul_one n
  rw [hone] at ha hunits
  rw [ofScaled?_once negative ha (by omega)]
  cases exponent with
  | ofNat e =>
      obtain ⟨power, hpower, hpowerUnits⟩ := nearest?_tenPow (e := e) hexponent
      rw [scaleOnce?_ofNat hpower, hunits, hpowerUnits, nearest?_product]
      exact congrArg (Option.map (Binary64.finite negative)) h
  | negSucc e =>
      obtain ⟨power, hpower, hpowerUnits⟩ := nearest?_tenPow (e := e + 1) hexponent
      rw [scaleOnce?_negSucc hpower, hunits, hpowerUnits,
        nearest?_mul_right _ _ (twoPow_pos _)]
      exact congrArg (Option.map (Binary64.finite negative)) h

end Binary64

end QueryLabel
