import Mathlib.Algebra.Order.Field.Power
import QueryLabel.Proofs.Binary64.Literal
import QueryLabel.Proofs.Binary64.Rank

/-!
Correct rounding, said without an algorithm.  A number is correctly rounded to a magnitude that is
nearest among all of them, and to one with an even mantissa where two are equally near; from the
middle between the largest magnitude and 2^1024 on it is infinite (`IsNearest`).  Decimals are read
that way (`isNearest_ofDecimal`), and there is no other way to do it (`IsNearest.unique`).
-/

namespace QueryLabel

/-! ### Powers of ten -/

/-- Ten to a power, which may be negative. -/
def powerOfTen : Int → ℚ
  | .ofNat e => tenPow e
  | .negSucc e => 1 / tenPow (e + 1)

theorem powerOfTen_eq (e : Int) : powerOfTen e = (10 : ℚ) ^ e := by
  have hcast : ∀ k, (tenPow k : ℚ) = (10 : ℚ) ^ k := fun k => Nat.cast_pow 10 k
  cases e with
  | ofNat e => exact hcast e
  | negSucc e =>
      rw [powerOfTen, hcast, zpow_negSucc, one_div]

theorem powerOfTen_pos (e : Int) : 0 < powerOfTen e := by
  rw [powerOfTen_eq]
  exact zpow_pos (by norm_num) e

theorem powerOfTen_add (a b : Int) : powerOfTen (a + b) = powerOfTen a * powerOfTen b := by
  rw [powerOfTen_eq, powerOfTen_eq, powerOfTen_eq]
  exact zpow_add₀ (by norm_num) a b

theorem powerOfTen_le {a b : Int} (h : a ≤ b) : powerOfTen a ≤ powerOfTen b := by
  rw [powerOfTen_eq, powerOfTen_eq]
  exact zpow_le_zpow_right₀ (by norm_num) h

theorem powerOfTen_natCast (e : Nat) : powerOfTen e = tenPow e := rfl

namespace Magnitude

/-! ### The nearest magnitude -/

/-- The number that a magnitude is. -/
def value (size : Magnitude) : ℚ := size.units / twoPow 1074

/-- No magnitude is nearer to a number, and if another one is as near, the mantissa is even. -/
structure NearestTo (size : Magnitude) (q : ℚ) : Prop where
  least : ∀ other : Magnitude, |q - size.value| ≤ |q - other.value|
  even : ∀ other : Magnitude, other ≠ size → |q - other.value| = |q - size.value| →
    size.mantissa % 2 = 0

/-- The middle between the largest magnitude and 2^1024. -/
def overflow : ℚ := twoPow 1024 - twoPow 970

/-- A number is rounded to a magnitude. -/
structure Covers (size : Magnitude) (q : ℚ) : Prop where
  below : q < overflow
  nearest : size.NearestTo q

variable {size : Magnitude} {num den : Nat} {q : ℚ}

theorem units_ne_of_ne {other : Magnitude} (h : other ≠ size) : other.units ≠ size.units :=
  fun hunits => h (ext hunits)

/-- Distances may be measured in units. -/
theorem dist_value (q : ℚ) (size : Magnitude) :
    |q - size.value| = |q * twoPow 1074 - size.units| / twoPow 1074 := by
  have hpos := cast_twoPow_pos 1074
  unfold value
  generalize (twoPow 1074 : ℚ) = t at hpos ⊢
  have hsplit : q - size.units / t = (q * t - size.units) / t := by
    rw [sub_div, mul_div_cancel_right₀ q hpos.ne']
  rw [hsplit, abs_div, abs_of_pos hpos]

theorem nearestTo_iff : size.NearestTo q ↔
    (∀ other : Magnitude,
        |q * twoPow 1074 - size.units| ≤ |q * twoPow 1074 - other.units|) ∧
      ∀ other : Magnitude, other ≠ size →
        |q * twoPow 1074 - other.units| = |q * twoPow 1074 - size.units| →
          size.mantissa % 2 = 0 := by
  have hpos := cast_twoPow_pos 1074
  constructor
  · rintro ⟨hleast, heven⟩
    simp only [dist_value] at hleast heven
    refine ⟨fun other => (div_le_div_iff_of_pos_right hpos).mp (hleast other), ?_⟩
    exact fun other hne heq => heven other hne (by rw [heq])
  · rintro ⟨hleast, heven⟩
    refine ⟨fun other => ?_, fun other hne heq => heven other hne ?_⟩
    · rw [dist_value, dist_value]
      exact (div_le_div_iff_of_pos_right hpos).mpr (hleast other)
    · rw [dist_value, dist_value] at heq
      exact (div_left_inj' hpos.ne').mp heq

/-- From the middle between two whole numbers the even one is taken. -/
theorem roundEven_even {num den : Nat} (hden : 0 < den)
    (h : 2 * num = 2 * (roundEven num den * den) + den ∨
      2 * num + den = 2 * (roundEven num den * den)) : roundEven num den % 2 = 0 := by
  have hdiv := Nat.div_add_mod num den
  have hmod := Nat.mod_lt num hden
  have hcomm : den * (num / den) = num / den * den := Nat.mul_comm _ _
  have hsucc : (num / den + 1) * den = num / den * den + den := Nat.succ_mul _ _
  unfold roundEven at h ⊢
  simp only at h ⊢
  generalize num / den = a at *
  generalize num % den = r at *
  rw [hcomm] at hdiv
  split at h
  · omega
  · split at h
    · rw [hsucc] at h
      omega
    · split at h
      · next heven =>
          rw [if_neg ‹_›, if_neg ‹_›, if_pos heven]
          exact heven
      · next hodd =>
          rw [if_neg ‹_›, if_neg ‹_›, if_neg hodd]
          omega

/-- A whole number within a half is as near as any other one, and one that is as near is a half
away. -/
theorem whole_near {t : ℚ} {m : Nat} (h : |t - m| ≤ 1 / 2) (j : Nat) :
    |t - m| ≤ |t - j| ∧ (j ≠ m → |t - j| = |t - m| → |t - m| = 1 / 2) := by
  by_cases hj : j = m
  · rw [hj]
    exact ⟨le_rfl, fun hne => absurd rfl hne⟩
  have hgap : (1 : ℚ) ≤ |(j : ℚ) - m| := by
    rcases Nat.lt_or_gt_of_ne hj with hlt | hgt
    · have hle : ((j + 1 : Nat) : ℚ) ≤ m := by exact_mod_cast hlt
      push_cast at hle
      rw [abs_of_nonpos (by linarith)]
      linarith
    · have hle : ((m + 1 : Nat) : ℚ) ≤ j := by exact_mod_cast hgt
      push_cast at hle
      rw [abs_of_nonneg (by linarith)]
      linarith
  have htriangle : |(j : ℚ) - m| ≤ |t - m| + |t - j| := by
    have hsum := abs_sub_le (j : ℚ) t m
    rw [abs_sub_comm (j : ℚ) t] at hsum
    linarith
  constructor
  · linarith
  · intro _ heq
    linarith

/-- A magnitude is a whole number of steps, or it lies below the numbers that are counted in
them. -/
theorem steps_or_below (other : Magnitude) (k : Nat) :
    (∃ j, other.units = j * twoPow k) ∨
      k ≠ 0 ∧ other.units < 0x10000000000000 * twoPow k := by
  by_cases hk : k ≤ other.units.log2 - 52
  · obtain ⟨j, hj⟩ := Nat.dvd_trans (twoPow_dvd_twoPow hk) other.short
    exact Or.inl ⟨j, by rw [hj, Nat.mul_comm]⟩
  · right
    refine ⟨by omega, ?_⟩
    rw [← twoPow_52_add]
    by_cases hzero : other.units = 0
    · rw [hzero]
      exact twoPow_pos _
    · rw [← log2_lt_iff hzero]
      omega

/-- What a number is rounded to is as near as any other magnitude, and one that is as near is half
a step away. -/
theorem Rounds.near {u : ℚ} {k m : Nat} (h : Rounds u k m) (other : Magnitude) :
    |u - (m * twoPow k : Nat)| ≤ |u - other.units| ∧
      (other.units ≠ m * twoPow k → |u - other.units| = |u - (m * twoPow k : Nat)| →
        |u / twoPow k - m| = 1 / 2) := by
  have hpos := cast_twoPow_pos k
  have hscale : ∀ j : Nat, |u - (j * twoPow k : Nat)| = |u / twoPow k - j| * twoPow k := by
    intro j
    have hsplit : u - (j * twoPow k : Nat) = (u / twoPow k - j) * twoPow k := by
      rw [sub_mul, div_mul_cancel₀ u hpos.ne', Nat.cast_mul]
    rw [hsplit, abs_mul, abs_of_pos hpos]
  have hhalf : |u / twoPow k - m| ≤ 1 / 2 :=
    abs_le.mpr ⟨by linarith [h.high], by linarith [h.low]⟩
  have hnear := whole_near hhalf
  rcases other.steps_or_below k with ⟨j, hj⟩ | ⟨hk, hbelow⟩
  · rw [hj, hscale, hscale]
    refine ⟨mul_le_mul_of_nonneg_right (hnear j).1 hpos.le, fun hne heq => ?_⟩
    refine (hnear j).2 (fun hjm => hne (by rw [hjm])) ?_
    exact mul_right_cancel₀ hpos.ne' heq
  · -- A magnitude with shorter steps lies below the first one that is counted in these.
    have hlow : 0x10000000000000 * (twoPow k : ℚ) ≤ u := h.piece.low.resolve_left hk
    have hfirst := mul_le_mul_of_nonneg_right (hnear 0x10000000000000).1 hpos.le
    rw [← hscale, ← hscale] at hfirst
    have hlt : (other.units : ℚ) < (0x10000000000000 * twoPow k : Nat) := by exact_mod_cast hbelow
    have hlow' : ((0x10000000000000 * twoPow k : Nat) : ℚ) ≤ u := by exact_mod_cast hlow
    rw [abs_of_nonneg (sub_nonneg.mpr hlow')] at hfirst
    have hother : |u - (m * twoPow k : Nat)| < |u - other.units| := by
      rw [abs_of_nonneg (sub_nonneg.mpr (hlt.le.trans hlow'))]
      linarith
    exact ⟨hother.le, fun _ heq => absurd heq hother.ne'⟩

/-- A quotient, counted in units. -/
theorem mul_twoPow_eq (num den : Nat) :
    (num : ℚ) / den * twoPow 1074 = inUnits num den := by
  rw [inUnits, Nat.cast_mul, div_mul_eq_mul_div]

/-- Where the quotient is half a step away, the number of steps is even. -/
theorem roundedMantissa_even (hden : 0 < den)
    (h : |inUnits num den / twoPow (excess (num * twoPow 1074 / den)) -
      roundedMantissa num den| = 1 / 2) : roundedMantissa num den % 2 = 0 := by
  have hden' : (0 : ℚ) < den := Nat.cast_pos.mpr hden
  have hpow := cast_twoPow_pos (excess (num * twoPow 1074 / den))
  apply roundEven_even (Nat.mul_pos hden (twoPow_pos _))
  change 2 * (num * twoPow 1074) = 2 * (roundedMantissa num den * _) + _ ∨
    2 * (num * twoPow 1074) + _ = 2 * (roundedMantissa num den * _)
  unfold inUnits at h
  generalize excess (num * twoPow 1074 / den) = k at *
  generalize roundedMantissa num den = m at *
  generalize num * twoPow 1074 = n at *
  rw [div_div] at h
  have hproduct : (0 : ℚ) < den * twoPow k := mul_pos hden' hpow
  rcases (abs_eq (by norm_num)).mp h with hup | hdown
  · left
    have hn : (n : ℚ) = (m + 1 / 2) * (den * twoPow k) :=
      (div_eq_iff hproduct.ne').mp (by linarith)
    have hcast : (2 * n : ℚ) = 2 * (m * (den * twoPow k)) + den * twoPow k := by
      rw [hn]
      ring
    exact_mod_cast hcast
  · right
    have hn : (n : ℚ) = (m - 1 / 2) * (den * twoPow k) :=
      (div_eq_iff hproduct.ne').mp (by linarith)
    have hcast : (2 * n + den * twoPow k : ℚ) = 2 * (m * (den * twoPow k)) := by
      rw [hn]
      ring
    exact_mod_cast hcast

/-- The mantissa is even where the number of steps is. -/
theorem mantissa_even_of_units {k m : Nat} (h : size.units = m * twoPow k)
    (hleast : k = 0 ∨ 0x10000000000000 ≤ m) (hmost : m ≤ 0x20000000000000) (heven : m % 2 = 0) :
    size.mantissa % 2 = 0 := by
  have hrank := rank_of_units h hleast hmost
  unfold rank at hrank
  omega

/-- A quotient is rounded to the nearest magnitude. -/
theorem nearestTo_of_nearest? (hden : 0 < den) (h : nearest? num den = some size) :
    size.NearestTo (num / den) := by
  have hrounds := rounds_nearest num hden
  have hunits := units_of_nearest? h
  rw [nearestTo_iff, mul_twoPow_eq, hunits]
  refine ⟨fun other => (hrounds.near other).1, fun other hne heq => ?_⟩
  apply mantissa_even_of_units hunits hrounds.least hrounds.most
  apply roundedMantissa_even hden
  refine (hrounds.near other).2 ?_ heq
  rw [← hunits]
  exact units_ne_of_ne hne

/-! ### The largest magnitude -/

theorem units_lt (size : Magnitude) : size.units < twoPow 2098 := by
  by_cases hzero : size.units = 0
  · rw [hzero]
    exact twoPow_pos _
  · exact (log2_lt_iff hzero _).mp size.bounded

theorem step_le (size : Magnitude) : size.step ≤ twoPow 2045 := by
  have hbounded := size.bounded
  have hexcess : size.units.log2 - 52 ≤ 2045 := by omega
  exact Nat.le_of_dvd (twoPow_pos _) (twoPow_dvd_twoPow hexcess)

/-- The middle behind the largest magnitude is half a step above it. -/
theorem overflow_units :
    overflow * twoPow 1074 = (0x20000000000000 - 1 / 2) * (twoPow 2045 : ℚ) := by
  have hsplit : ∀ a b : Nat, (twoPow (a + b) : ℚ) = twoPow a * twoPow b := by
    intro a b
    rw [twoPow_add, Nat.cast_mul]
  have htop : (twoPow 2098 : ℚ) = 0x20000000000000 * twoPow 2045 := by
    exact_mod_cast twoPow_53_add 2045
  have hhalf : (twoPow 2045 : ℚ) = 2 * twoPow 2044 := cast_twoPow_succ 2044
  rw [overflow, sub_mul, ← hsplit, ← hsplit, htop]
  linarith

theorem value_lt_overflow (size : Magnitude) : size.value < overflow := by
  have hpow := cast_twoPow_pos 2045
  have hmantissa : size.mantissa ≤ 0x1FFFFFFFFFFFFF := Nat.le_of_lt_succ (div_excess_lt size.units)
  have hunits : size.units ≤ 0x1FFFFFFFFFFFFF * twoPow 2045 := by
    rw [← size.mantissa_mul_step]
    exact Nat.mul_le_mul hmantissa size.step_le
  have hunits' : (size.units : ℚ) ≤ 0x1FFFFFFFFFFFFF * twoPow 2045 := by exact_mod_cast hunits
  rw [value, div_lt_iff₀ (cast_twoPow_pos 1074), overflow_units]
  linarith

/-- A number so large is counted in the longest steps, if it is rounded to a magnitude at all. -/
theorem Rounds.longest_of_overflow {u : ℚ} {k m : Nat} (h : Rounds u k m)
    (hu : (0x20000000000000 - 1 / 2) * (twoPow 2045 : ℚ) ≤ u) (hlt : m * twoPow k < twoPow 2098) :
    k = 2045 ∧ m < 0x20000000000000 := by
  have hpow := cast_twoPow_pos 2045
  have hk : 2045 ≤ k := by
    by_contra hsmall
    have hle : twoPow (53 + k) ≤ twoPow 2097 := Nat.le_of_dvd (twoPow_pos _)
      (twoPow_dvd_twoPow (by omega))
    have hle' : (0x20000000000000 * twoPow k : ℚ) ≤ 0x10000000000000 * twoPow 2045 := by
      exact_mod_cast (twoPow_53_add k).symm.trans_le (hle.trans_eq (twoPow_52_add 2045))
    have hhigh := h.piece.high
    linarith
  have hleast : 0x10000000000000 ≤ m := h.least.resolve_left (by omega)
  have hk' : k = 2045 := by
    by_contra hlarge
    have hle : twoPow 2098 ≤ twoPow (52 + k) := Nat.le_of_dvd (twoPow_pos _)
      (twoPow_dvd_twoPow (by omega))
    rw [twoPow_52_add] at hle
    exact absurd (hlt.trans_le hle) (Nat.not_lt.mpr (Nat.mul_le_mul_right _ hleast))
  subst hk'
  rw [twoPow_53_add 2045] at hlt
  exact ⟨rfl, Nat.lt_of_mul_lt_mul_right hlt⟩

/-- From the middle behind the largest magnitude on a number is rounded to too many steps for a
magnitude. -/
theorem Rounds.ne_units_of_overflow {u : ℚ} {k m : Nat} (h : Rounds u k m)
    (heven : |u / twoPow k - m| = 1 / 2 → m % 2 = 0)
    (hu : (0x20000000000000 - 1 / 2) * (twoPow 2045 : ℚ) ≤ u) (size : Magnitude) :
    size.units ≠ m * twoPow k := by
  intro hunits
  have hlt := size.units_lt
  rw [hunits] at hlt
  obtain ⟨rfl, hm⟩ := h.longest_of_overflow hu hlt
  -- The number of steps is the largest one, which is odd, and the number is a half above it.
  have hdiv : (0x20000000000000 - 1 / 2 : ℚ) ≤ u / twoPow 2045 :=
    (le_div_iff₀ (cast_twoPow_pos 2045)).mpr hu
  have hlow := h.low
  have hm' : m = 0x1FFFFFFFFFFFFF := by
    have hge : (0x1FFFFFFFFFFFFF : ℚ) ≤ m := by linarith
    have hge' : 0x1FFFFFFFFFFFFF ≤ m := by exact_mod_cast hge
    omega
  subst hm'
  push_cast at hlow
  have hhalf : |u / twoPow 2045 - (0x1FFFFFFFFFFFFF : Nat)| = 1 / 2 := by
    rw [abs_of_nonneg (by push_cast; linarith)]
    push_cast
    linarith
  cases heven hhalf

/-- From the middle behind the largest magnitude on nothing is near enough. -/
theorem nearest?_eq_none_iff (hden : 0 < den) :
    nearest? num den = none ↔ overflow ≤ num / den := by
  have hpow := cast_twoPow_pos 2045
  have hscale : overflow ≤ num / den ↔
      (0x20000000000000 - 1 / 2) * (twoPow 2045 : ℚ) ≤ inUnits num den := by
    rw [← mul_twoPow_eq, ← overflow_units, mul_le_mul_iff_left₀ (cast_twoPow_pos 1074)]
  rw [hscale]
  constructor
  · intro hnone
    by_contra hlt
    have hline : line 2045 (inUnits num den) < rankLimit - 1 / 2 := by
      have hdiv := (div_lt_iff₀ hpow).mpr (not_le.mp hlt)
      unfold line rankLimit
      push_cast
      linarith
    obtain ⟨size, hsize⟩ := exists_nearest? hden hline
    rw [hnone] at hsize
    cases hsize
  · intro hle
    cases hnearest : nearest? num den with
    | none => rfl
    | some size =>
        exact absurd (units_of_nearest? hnearest) ((rounds_nearest num hden).ne_units_of_overflow
          (roundedMantissa_even hden) hle size)

theorem covers_of_nearest? (hden : 0 < den) (h : nearest? num den = some size) :
    size.Covers (num / den) := by
  refine ⟨lt_of_not_ge fun hle => ?_, nearestTo_of_nearest? hden h⟩
  rw [(nearest?_eq_none_iff hden).mpr hle] at h
  cases h

/-- Numbers below half a unit are nearest to zero. -/
theorem nearestTo_zero (hq : 0 ≤ q) (hlt : 2 * (q * twoPow 1074) < 1) : zero.NearestTo q := by
  have hpos := cast_twoPow_pos 1074
  have hunits : 0 ≤ q * twoPow 1074 := mul_nonneg hq hpos.le
  have hnear := @whole_near (q * twoPow 1074) 0 (by
    rw [Nat.cast_zero, sub_zero, abs_of_nonneg hunits]
    linarith)
  exact nearestTo_iff.mpr ⟨fun other => (hnear other.units).1, fun _ _ _ => rfl⟩

/-! ### Neighbours -/

/-- The next magnitude is a step above. -/
theorem exists_above (h : size.units + size.step < twoPow 2098) :
    ∃ above : Magnitude, above.units = size.units + size.step := by
  have hstep := size.step_pos
  have hmantissa : size.mantissa < 0x20000000000000 := div_excess_lt size.units
  have hproduct : (size.mantissa + 1) * size.step = size.units + size.step := by
    rw [Nat.succ_mul, size.mantissa_mul_step]
  refine ⟨⟨(size.mantissa + 1) * size.step, short_of_le hmantissa _, ?_⟩, hproduct⟩
  rw [log2_lt_iff (by omega), hproduct]
  exact h

theorem step_eq (size : Magnitude) : size.step = twoPow (excess size.units) := rfl

/-- There is no magnitude less than a step above. -/
theorem add_step_le {other : Magnitude} (h : size.units < other.units) :
    size.units + size.step ≤ other.units := by
  have hproduct := size.mantissa_mul_step
  rcases other.steps_or_below (excess size.units) with ⟨j, hj⟩ | ⟨hexcess, hbelow⟩
  · rw [← step_eq] at hj
    rw [hj, ← hproduct] at h ⊢
    rw [← Nat.succ_mul]
    exact Nat.mul_le_mul_right _ (Nat.lt_of_mul_lt_mul_right h)
  · rw [← step_eq] at hbelow
    rcases size.mantissa_cases (by rintro hzero; exact hexcess (excess_of_lt (by omega))) with
      ⟨hzero, -⟩ | ⟨-, hleast, -⟩
    · exact absurd hzero hexcess
    · have hmul := Nat.mul_le_mul_right size.step hleast
      omega

/-- Of two neighbours only one has an even mantissa. -/
theorem mantissa_above {above : Magnitude} (h : above.units = size.units + size.step) :
    (above.mantissa + size.mantissa) % 2 = 1 := by
  have hmantissa : size.mantissa < 0x20000000000000 := div_excess_lt size.units
  have hunits : above.units = (size.mantissa + 1) * twoPow (excess size.units) := by
    rw [h, Nat.succ_mul, ← step_eq, size.mantissa_mul_step]
  have hleast : excess size.units = 0 ∨ 0x10000000000000 ≤ size.mantissa + 1 := by
    by_cases hzero : size.units = 0
    · rw [hzero]
      exact Or.inl rfl
    · rcases size.mantissa_cases hzero with ⟨hexcess, -⟩ | ⟨-, hleast, -⟩
      · exact Or.inl hexcess
      · exact Or.inr (Nat.le_succ_of_le hleast)
  have hrank := rank_of_units hunits hleast hmantissa
  unfold rank at hrank
  omega

/-- Two magnitudes are not both the nearest one. -/
theorem NearestTo.not_lt {other : Magnitude} (h : size.NearestTo q) (h' : other.NearestTo q) :
    ¬ size.units < other.units := by
  intro hlt
  have hne : other ≠ size := by
    rintro rfl
    exact Nat.lt_irrefl _ hlt
  obtain ⟨hleast, heven⟩ := nearestTo_iff.mp h
  obtain ⟨hleast', heven'⟩ := nearestTo_iff.mp h'
  have hsame := le_antisymm (hleast' size) (hleast other)
  have hsize := heven other hne hsame
  have hother := heven' size hne.symm hsame.symm
  have hgap := add_step_le hlt
  obtain ⟨above, habove⟩ := exists_above (Nat.lt_of_le_of_lt hgap other.units_lt)
  rcases Nat.lt_or_eq_of_le hgap with hbetween | hnext
  · -- The number is in the middle, and the next magnitude is nearer to it.
    have hlow : (size.units : ℚ) < above.units := by
      rw [habove]
      exact_mod_cast Nat.lt_add_of_pos_right size.step_pos
    have hhigh : (above.units : ℚ) < other.units := by
      rw [habove]
      exact_mod_cast hbetween
    have hnear := hleast above
    generalize q * twoPow 1074 = u at *
    rcases abs_choice (u - above.units) with hside | hside <;> rw [hside] at hnear
    · have hself := le_abs_self (u - size.units)
      linarith
    · have hself := neg_abs_le (u - other.units)
      linarith
  · have hparity := mantissa_above hnext.symm
    omega

theorem NearestTo.unique {other : Magnitude} (h : size.NearestTo q) (h' : other.NearestTo q) :
    size = other := by
  rcases Nat.lt_trichotomy size.units other.units with hlt | heq | hgt
  · exact absurd hlt (h.not_lt h')
  · exact ext heq
  · exact absurd hgt (h'.not_lt h)

/-- What lies between a magnitude and a number that it is nearest to is nearest to it as well. -/
theorem NearestTo.between {r : ℚ} (h : size.NearestTo q)
    (hr : |q - size.value| = |q - r| + |r - size.value|) : size.NearestTo r := by
  have htriangle : ∀ other : Magnitude, |q - other.value| ≤ |q - r| + |r - other.value| :=
    fun other => abs_sub_le q r other.value
  refine ⟨fun other => ?_, fun other hne heq => h.even other hne ?_⟩
  · have hleast := h.least other
    have hother := htriangle other
    linarith
  · have hother := htriangle other
    exact le_antisymm (by linarith) (h.least other)

end Magnitude

namespace Binary64

/-! ### The nearest number -/

/-- A number with a sign and a magnitude is correctly rounded. -/
inductive IsNearest (negative : Bool) (q : ℚ) : Binary64 → Prop
  | finite {size : Magnitude} (h : size.Covers q) : IsNearest negative q (.finite negative size)
  | infinite (h : Magnitude.overflow ≤ q) : IsNearest negative q (.infinite negative)

variable {negative : Bool} {num den n : Nat} {q : ℚ}

theorem isNearest_nearest (negative : Bool) (num : Nat) (hden : 0 < den) :
    IsNearest negative (num / den) (nearest negative num den) := by
  unfold nearest
  cases hnearest : Magnitude.nearest? num den with
  | none => exact .infinite ((Magnitude.nearest?_eq_none_iff hden).mp hnearest)
  | some size => exact .finite (Magnitude.covers_of_nearest? hden hnearest)

/-- Numbers below half a unit are rounded to zero. -/
theorem isNearest_zero (negative : Bool) (hq : 0 ≤ q) (hlt : 2 * (q * twoPow 1074) < 1) :
    IsNearest negative q (.zero negative) := by
  refine .finite ⟨?_, Magnitude.nearestTo_zero hq hlt⟩
  have hunit : (1 : ℚ) ≤ twoPow 1074 := by exact_mod_cast twoPow_pos 1074
  have hone : (1 : ℚ) ≤ Magnitude.overflow := by
    have hsplit : (twoPow 1024 : ℚ) = 0x20000000000000 * twoPow 971 := by
      exact_mod_cast Magnitude.twoPow_53_add 971
    have hpow : (1 : ℚ) ≤ twoPow 970 := by exact_mod_cast twoPow_pos 970
    rw [Magnitude.overflow, hsplit, cast_twoPow_succ]
    linarith
  have hle : q * 1 ≤ q * twoPow 1074 := mul_le_mul_of_nonneg_left hunit hq
  linarith

/-- A decimal is less than the power of ten behind its first digit, and at least the power of ten
that its first digit counts. -/
theorem decimal_bounds (hn : n ≠ 0) (e : Int) :
    powerOfTen ((Text.decimal n).length + e - 1) ≤ n * powerOfTen e ∧
      n * powerOfTen e < powerOfTen ((Text.decimal n).length + e) := by
  have hpos := powerOfTen_pos e
  have hlength : 0 < (Text.decimal n).length := List.length_pos_iff.mpr (Text.decimal_ne_nil n)
  constructor
  · have hsplit : ((Text.decimal n).length + e - 1 : Int) =
        ((Text.decimal n).length - 1 : Nat) + e := by omega
    rw [hsplit, powerOfTen_add, powerOfTen_natCast]
    exact mul_le_mul_of_nonneg_right (Nat.cast_le.mpr (Text.tenPow_le_of_decimal hn)) hpos.le
  · rw [powerOfTen_add, powerOfTen_natCast]
    exact mul_lt_mul_of_pos_right (Nat.cast_lt.mpr (Text.lt_tenPow_length n)) hpos

/-- A decimal is read as the number that is correctly rounded. -/
theorem isNearest_ofDecimal (negative : Bool) (n : Nat) (e : Int) :
    IsNearest negative (n * powerOfTen e) (ofDecimal negative n e) := by
  unfold ofDecimal
  simp only
  split
  · next hn =>
      rw [hn, Nat.cast_zero, zero_mul]
      refine isNearest_zero negative le_rfl ?_
      rw [zero_mul, mul_zero]
      exact one_pos
  next hn =>
  obtain ⟨hlow, hhigh⟩ := decimal_bounds hn e
  split
  · next hlarge =>
      have hle : powerOfTen 310 ≤ n * powerOfTen e := (powerOfTen_le (by omega)).trans hlow
      have hten : twoPow 1024 ≤ tenPow 310 := by decide +kernel
      have hten' : (twoPow 1024 : ℚ) ≤ powerOfTen 310 := Nat.cast_le.mpr hten
      refine .infinite ?_
      have hpos := cast_twoPow_pos 970
      rw [Magnitude.overflow]
      linarith
  split
  · next hsmall =>
      have hlt : n * powerOfTen e < powerOfTen (-331) :=
        hhigh.trans_le (powerOfTen_le (by omega))
      have hten : twoPow 1075 ≤ tenPow 331 := by decide +kernel
      have hle : powerOfTen (-331) * (2 * twoPow 1074) ≤ 1 := by
        rw [← cast_twoPow_succ]
        change 1 / (tenPow 331 : ℚ) * twoPow 1075 ≤ 1
        rw [one_div_mul_eq_div, div_le_one (Nat.cast_pos.mpr (tenPow_pos 331))]
        exact Nat.cast_le.mpr hten
      have hmul := mul_lt_mul_of_pos_right hlt
        (mul_pos two_pos (cast_twoPow_pos 1074) : (0 : ℚ) < 2 * twoPow 1074)
      refine isNearest_zero negative (mul_nonneg (Nat.cast_nonneg _) (powerOfTen_pos e).le) ?_
      linarith
  cases e with
  | ofNat e =>
      have hnearest := isNearest_nearest negative (n * tenPow e) Nat.one_pos
      rwa [Nat.cast_one, div_one, Nat.cast_mul] at hnearest
  | negSucc e =>
      have hnearest := isNearest_nearest negative n (tenPow_pos (e + 1))
      rwa [div_eq_mul_one_div] at hnearest

/-- A number is correctly rounded in one way only. -/
theorem IsNearest.unique {x y : Binary64} (hx : IsNearest negative q x)
    (hy : IsNearest negative q y) : x = y := by
  cases hx with
  | finite h =>
      cases hy with
      | finite h' => rw [h.nearest.unique h'.nearest]
      | infinite hle => exact absurd h.below (not_lt.mpr hle)
  | infinite hle =>
      cases hy with
      | finite h => exact absurd h.below (not_lt.mpr hle)
      | infinite _ => rfl

/-- A magnitude with a sign. -/
def signed (negative : Bool) (q : ℚ) : ℚ :=
  if negative then -q else q

/-- The magnitude of a numeral. -/
def Numeral.magnitude (numeral : Numeral) : ℚ :=
  numeral.significand * powerOfTen numeral.exponent

/-- The number that a numeral denotes. -/
def Numeral.value (numeral : Numeral) : ℚ :=
  signed numeral.negative numeral.magnitude

/-- A literal spells a numeral that is correctly rounded to a number. -/
def Represents (literal : Text) (x : Binary64) : Prop :=
  ∃ numeral, numeral? literal = some numeral ∧ IsNearest numeral.negative numeral.magnitude x

/-- Literals are read as the numbers that they represent. -/
theorem represents_iff {literal : Text} {x : Binary64} :
    Represents literal x ↔ readLiteral? literal = some x := by
  rw [readLiteral?_eq]
  constructor
  · rintro ⟨numeral, hnumeral, hx⟩
    rw [hnumeral]
    exact congrArg some ((isNearest_ofDecimal _ _ _).unique hx)
  · intro hread
    obtain ⟨numeral, hnumeral, rfl⟩ := Option.map_eq_some_iff.mp hread
    exact ⟨numeral, hnumeral, isNearest_ofDecimal _ _ _⟩

end Binary64

end QueryLabel
