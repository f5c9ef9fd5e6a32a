import QueryLabel.Binary64.Shortest

/-!
Rounding finds every magnitude again.  A quotient that lies in the interval of the decimals that
read back as a magnitude (`Magnitude.readsBack`) is rounded to that magnitude
(`nearest?_of_readsBack`).
-/

namespace QueryLabel

/-- A quotient within half a unit of a whole number is rounded to it; from the middle between two
only the even one is taken. -/
theorem roundEven_eq {num den m : Nat} (hden : 0 < den) (hlow : 2 * (m * den) ≤ 2 * num + den)
    (hhigh : 2 * num ≤ 2 * (m * den) + den)
    (htie : m % 2 = 0 ∨ (2 * (m * den) < 2 * num + den ∧ 2 * num < 2 * (m * den) + den)) :
    roundEven num den = m := by
  have hdiv := Nat.div_add_mod num den
  have hmod := Nat.mod_lt num hden
  have hcomm : den * (num / den) = num / den * den := Nat.mul_comm _ _
  have hle : num / den ≤ m := by
    apply Nat.le_of_lt_succ
    rw [Nat.div_lt_iff_lt_mul hden, Nat.succ_mul]
    omega
  have hge : m ≤ num / den + 1 := by
    apply Nat.le_of_lt_succ
    apply Nat.lt_of_mul_lt_mul_right (a := den)
    rw [Nat.succ_mul, Nat.succ_mul]
    omega
  unfold roundEven
  simp only
  generalize num / den = q at *
  generalize num % den = r at *
  rcases Nat.lt_or_eq_of_le hge with hlt | rfl
  · -- The whole number is the quotient rounded down.
    have hq : q = m := by omega
    subst hq
    rw [hcomm] at hdiv
    generalize q * den = p at *
    repeat' split
    all_goals omega
  · -- The whole number is the one above.
    have hsucc : (q + 1) * den = q * den + den := Nat.succ_mul q den
    rw [hsucc] at hlow hhigh htie
    rw [hcomm] at hdiv
    generalize q * den = p at *
    repeat' split
    all_goals omega

namespace Magnitude

theorem le_log2_iff {n : Nat} (hn : n ≠ 0) (k : Nat) : k ≤ n.log2 ↔ twoPow k ≤ n := by
  have hlt := log2_lt_iff hn k
  omega

theorem step_pos (size : Magnitude) : 0 < size.step :=
  twoPow_pos _

/-- A magnitude other than zero has a mantissa of 53 bits, or it is counted in single units. -/
theorem mantissa_cases (size : Magnitude) (hsize : size.units ≠ 0) :
    (excess size.units = 0 ∧ size.step = 1 ∧ size.mantissa = size.units ∧
        size.units < 0x20000000000000) ∨
      (size.units.log2 = 52 + excess size.units ∧ 0x10000000000000 ≤ size.mantissa ∧
        size.mantissa < 0x20000000000000) := by
  have hstep : size.step = twoPow (excess size.units) := rfl
  have hbelow : size.mantissa < 0x20000000000000 := div_excess_lt size.units
  by_cases hlog : size.units.log2 < 52
  · have hexcess : excess size.units = 0 := by
      unfold excess
      omega
    have hone : size.step = 1 := by
      rw [hstep, hexcess]
      rfl
    have hmantissa : size.mantissa = size.units := by
      rw [mantissa, hone, Nat.div_one]
    exact Or.inl ⟨hexcess, hone, hmantissa, hmantissa ▸ hbelow⟩
  · have hexcess : size.units.log2 = 52 + excess size.units := by
      unfold excess
      omega
    refine Or.inr ⟨hexcess, ?_, hbelow⟩
    change twoPow 52 ≤ size.units / size.step
    rw [Nat.le_div_iff_mul_le size.step_pos, hstep, ← twoPow_add, ← hexcess]
    exact (le_log2_iff hsize _).mp (Nat.le_refl _)

theorem below_le (size : Magnitude) : size.below ≤ 2 * size.step := by
  unfold below
  split <;> omega

theorem mantissa_pos (size : Magnitude) (hsize : size.units ≠ 0) : 0 < size.mantissa := by
  apply Nat.pos_of_ne_zero
  intro hzero
  have hproduct := size.mantissa_mul_step
  rw [hzero, Nat.zero_mul] at hproduct
  exact hsize hproduct.symm

theorem step_le_units (size : Magnitude) (hsize : size.units ≠ 0) : size.step ≤ size.units := by
  rw [← size.mantissa_mul_step]
  exact Nat.le_mul_of_pos_left _ (size.mantissa_pos hsize)

theorem below_le_units (size : Magnitude) (hsize : size.units ≠ 0) :
    size.below ≤ 2 * size.units := by
  have hbelow := size.below_le
  have hstep := size.step_le_units hsize
  omega

/-- The ends of the interval of a magnitude, for a quotient: at the ends only if the mantissa is
even. -/
structure Within (size : Magnitude) (num den : Nat) : Prop where
  low : 4 * (size.units * den) ≤ 4 * num + size.below * den
  high : 4 * num ≤ 4 * (size.units * den) + 2 * (size.step * den)
  tie : size.mantissa % 2 = 0 ∨ (4 * (size.units * den) < 4 * num + size.below * den ∧
    4 * num < 4 * (size.units * den) + 2 * (size.step * den))

section Within

variable {size : Magnitude} {num den : Nat}

theorem Within.units_le (h : Within size num den) (hden : 0 < den) :
    num / den < size.units + size.step := by
  have hstep := size.step_pos
  have hmul : 0 < size.step * den := Nat.mul_pos hstep hden
  have hhigh := h.high
  rw [Nat.div_lt_iff_lt_mul hden, Nat.add_mul]
  omega

theorem Within.le_units (h : Within size num den) (hden : 0 < den) {g : Nat}
    (hgap : size.below ≤ 4 * g) (hle : g ≤ size.units) : size.units - g ≤ num / den := by
  have hlow := h.low
  have hmul : size.below * den ≤ 4 * (g * den) := by
    rw [← Nat.mul_assoc]
    exact Nat.mul_le_mul_right den hgap
  have hsplit : size.units * den = (size.units - g) * den + g * den := by
    rw [← Nat.add_mul, Nat.sub_add_cancel hle]
  rw [Nat.le_div_iff_mul_le hden]
  omega

/-- Where the quotient is counted in the steps of the magnitude, its mantissa is found. -/
theorem Within.roundEven_step (h : Within size num den) (hden : 0 < den) :
    roundEven num (den * size.step) = size.mantissa := by
  have hproduct : size.mantissa * (den * size.step) = size.units * den := by
    rw [Nat.mul_comm den, ← Nat.mul_assoc, size.mantissa_mul_step]
  have hcomm : den * size.step = size.step * den := Nat.mul_comm _ _
  have hbelow : size.below * den ≤ 2 * (size.step * den) := by
    rw [← Nat.mul_assoc]
    exact Nat.mul_le_mul_right den size.below_le
  have hlow := h.low
  have hhigh := h.high
  have htie := h.tie
  apply roundEven_eq (Nat.mul_pos hden size.step_pos)
  · rw [hproduct, hcomm]
    omega
  · rw [hproduct, hcomm]
    omega
  · rw [hproduct, hcomm]
    omega

theorem twoPow_52_add (e : Nat) : twoPow (52 + e) = 0x10000000000000 * twoPow e :=
  twoPow_add 52 e

theorem twoPow_53_add (e : Nat) : twoPow (53 + e) = 0x20000000000000 * twoPow e :=
  twoPow_add 53 e

theorem step_of_excess {size : Magnitude} {e : Nat} (h : excess size.units = e + 1) :
    size.step = 2 * twoPow e := by
  change twoPow (excess size.units) = twoPow 1 * twoPow e
  rw [h, Nat.add_comm, twoPow_add]

theorem excess_of_bounds {n e : Nat} (hlow : twoPow (52 + e) ≤ n) (hhigh : n < twoPow (53 + e)) :
    excess n = e := by
  have hn : n ≠ 0 := by
    have hpos := twoPow_pos (52 + e)
    omega
  have hle := (le_log2_iff hn _).mpr hlow
  have hlt := (log2_lt_iff hn _).mpr hhigh
  unfold excess
  omega

theorem excess_of_lt {n : Nat} (h : n < 0x20000000000000) : excess n = 0 := by
  by_cases hn : n = 0
  · rw [hn]
    rfl
  · have hlt := (log2_lt_iff hn 53).mpr h
    unfold excess
    omega

theorem Within.div_lt (h : Within size num den) (hden : 0 < den) :
    num / den < twoPow (53 + excess size.units) := by
  have hproduct := size.mantissa_mul_step
  have hupper := h.units_le hden
  have hbound : size.mantissa < 0x20000000000000 := div_excess_lt size.units
  have hmul : (size.mantissa + 1) * size.step ≤ 0x20000000000000 * size.step :=
    Nat.mul_le_mul_right _ hbound
  have hpow : twoPow (53 + excess size.units) = 0x20000000000000 * size.step := twoPow_53_add _
  rw [Nat.succ_mul] at hmul
  omega

/-- A quotient lies less than a step below a magnitude with a mantissa of 53 bits. -/
theorem Within.le_div (h : Within size num den) (hden : 0 < den)
    (hleast : 0x10000000000000 ≤ size.mantissa) : size.units - size.step ≤ num / den := by
  have hproduct := size.mantissa_mul_step
  have hbelow := size.below_le
  have hmul : 0x10000000000000 * size.step ≤ size.mantissa * size.step :=
    Nat.mul_le_mul_right _ hleast
  exact h.le_units hden (by omega) (by omega)

/-- Below the least magnitude of a power of two the steps of the quotient are half as long. -/
theorem Within.excess_half (h : Within size num den) (hden : 0 < den)
    (hmantissa : size.mantissa = 0x10000000000000) {e : Nat}
    (hexcess : excess size.units = e + 1) (hlt : num / den < size.units) :
    excess (num / den) = e := by
  have hproduct := size.mantissa_mul_step
  have hlower := h.le_div hden (Nat.le_of_eq hmantissa.symm)
  have hpos := twoPow_pos e
  rw [hmantissa, step_of_excess hexcess] at hproduct
  rw [step_of_excess hexcess] at hlower
  apply excess_of_bounds
  · rw [twoPow_52_add]
    omega
  · rw [twoPow_53_add]
    omega

/-- The quotient is counted in the steps of the magnitude, except below the least magnitude of a
power of two: there the steps are half as long. -/
theorem Within.excess_cases (h : Within size num den) (hden : 0 < den)
    (hsize : size.units ≠ 0) :
    excess (num / den) = excess size.units ∨
      (size.mantissa = 0x10000000000000 ∧ excess size.units = excess (num / den) + 1 ∧
        num < size.units * den) := by
  have hupper := h.units_le hden
  have htop := h.div_lt hden
  rcases size.mantissa_cases hsize with ⟨hexcess, hone, -, hbound⟩ | ⟨hlog, hleast, -⟩
  · rw [hexcess]
    exact Or.inl (excess_of_lt (by omega))
  by_cases hlt : num / den < size.units
  · by_cases hmantissa : size.mantissa = 0x10000000000000
    · cases hexcess : excess size.units with
      | zero =>
          rw [hexcess] at htop
          exact Or.inl (excess_of_lt htop)
      | succ e =>
          refine Or.inr ⟨hmantissa, ?_, (Nat.div_lt_iff_lt_mul hden).mp hlt⟩
          rw [h.excess_half hden hmantissa hexcess hlt]
    · have hproduct := size.mantissa_mul_step
      have hlower := h.le_div hden hleast
      have hmul : 0x10000000000001 * size.step ≤ size.mantissa * size.step :=
        Nat.mul_le_mul_right _ (by omega)
      have hpow : twoPow (52 + excess size.units) = 0x10000000000000 * size.step :=
        twoPow_52_add _
      exact Or.inl (excess_of_bounds (by omega) htop)
  · have hfloor : twoPow (52 + excess size.units) ≤ size.units := by
      rw [← hlog]
      exact (le_log2_iff hsize _).mp (Nat.le_refl _)
    exact Or.inl (excess_of_bounds (Nat.le_trans hfloor (Nat.le_of_not_lt hlt)) htop)

/-- Below the least magnitude of a power of two twice the mantissa is found, in half the steps. -/
theorem Within.roundEven_half (h : Within size num den) (hden : 0 < den)
    (hmantissa : size.mantissa = 0x10000000000000) {e : Nat}
    (hexcess : excess size.units = e + 1) (hnum : num < size.units * den) :
    roundEven num (den * twoPow e) = 0x20000000000000 := by
  have hstep := step_of_excess hexcess
  have hpos := twoPow_pos e
  have hbelow : size.below = size.step := by
    unfold below
    rw [if_pos ⟨hmantissa, by omega⟩]
  have hproduct : 0x20000000000000 * (den * twoPow e) = size.units * den := by
    rw [← size.mantissa_mul_step, hmantissa, hstep, Nat.mul_comm den]
    generalize twoPow e = t
    rw [← Nat.mul_assoc, ← Nat.mul_assoc]
  have hcomm : size.step * den = 2 * (den * twoPow e) := by
    rw [hstep, Nat.mul_assoc, Nat.mul_comm (twoPow e)]
  have hlow := h.low
  rw [hbelow, hcomm] at hlow
  apply roundEven_eq (Nat.mul_pos hden hpos)
  · rw [hproduct]
    omega
  · rw [hproduct]
    omega
  · exact Or.inl rfl

theorem scale?_of_eq {m s : Nat} (hm : m ≤ 0x20000000000000) (h : m * twoPow s = size.units) :
    scale? m hm s = some size := by
  have hbounded : (m * twoPow s).log2 < 2098 := by
    rw [h]
    exact size.bounded
  unfold scale?
  rw [dif_pos hbounded]
  exact congrArg some (ext h)

/-- A quotient within the interval of a magnitude is rounded to it. -/
theorem nearest?_of_within (hsize : size.units ≠ 0) (hden : 0 < den)
    (h : Within size (num * twoPow 1074) den) : nearest? num den = some size := by
  apply scale?_of_eq
  rcases h.excess_cases hden hsize with hexcess | ⟨hmantissa, hexcess, hnum⟩
  · have hrounded : roundedMantissa num den = size.mantissa := by
      unfold roundedMantissa
      rw [hexcess]
      exact h.roundEven_step hden
    rw [hrounded, hexcess]
    exact size.mantissa_mul_step
  · have hrounded : roundedMantissa num den = 0x20000000000000 :=
      h.roundEven_half hden hmantissa hexcess hnum
    have hstep := step_of_excess hexcess
    have hproduct := size.mantissa_mul_step
    rw [hmantissa, hstep] at hproduct
    rw [hrounded]
    omega

end Within

/-! An end of an interval and a decimal, both multiplied by a denominator, are compared without
the offset. -/

theorem mul_le_iff {a b c den t : Nat} (hden : 0 < den) (ht : 0 < t) (h : b * den = c * t) :
    a * t ≤ b ↔ a * den ≤ c := by
  rw [← Nat.mul_le_mul_right_iff hden, h, Nat.mul_right_comm, Nat.mul_le_mul_right_iff ht]

theorem le_mul_iff {a b c den t : Nat} (hden : 0 < den) (ht : 0 < t) (h : b * den = c * t) :
    b ≤ a * t ↔ c ≤ a * den := by
  rw [← Nat.mul_le_mul_right_iff hden, h, Nat.mul_right_comm, Nat.mul_le_mul_right_iff ht]

/-- The interval of `readsBack`, in quarters of a unit. -/
theorem within_of_readsBack {size : Magnitude} (hsize : size.units ≠ 0) {num den f : Nat}
    (hden : 0 < den) (hfine : f * den = 4 * num * tenPow offset)
    (h : size.readsBack f = true) : Within size num den := by
  have hT := tenPow_pos offset
  have hbelow : size.below ≤ 4 * size.units := by
    have hle := size.below_le_units hsize
    omega
  have hlowMul : (4 * size.units - size.below) * den =
      4 * (size.units * den) - size.below * den := by
    rw [Nat.sub_mul, Nat.mul_assoc]
  have hbelowMul : size.below * den ≤ 4 * (size.units * den) := by
    rw [← Nat.mul_assoc]
    exact Nat.mul_le_mul_right den hbelow
  have hhighMul : (4 * size.units + 2 * size.step) * den =
      4 * (size.units * den) + 2 * (size.step * den) := by
    rw [Nat.add_mul, Nat.mul_assoc, Nat.mul_assoc]
  unfold readsBack at h
  simp only at h
  split at h
  · next heven =>
      rw [decide_eq_true_eq] at h
      have hlow := (mul_le_iff hden hT hfine).mp h.1
      have hhigh := (le_mul_iff hden hT hfine).mp h.2
      exact ⟨by omega, by omega, Or.inl heven⟩
  · rw [decide_eq_true_eq, ← Nat.not_le, ← Nat.not_le, mul_le_iff hden hT hfine,
      le_mul_iff hden hT hfine, Nat.not_le, Nat.not_le] at h
    obtain ⟨hhigh, hlow⟩ := h
    exact ⟨by omega, by omega, Or.inr ⟨by omega, by omega⟩⟩

/-- A decimal that reads back as a magnitude is rounded to it.  The decimal is counted in the
small units of `fine`. -/
theorem nearest?_of_readsBack {size : Magnitude} (hsize : size.units ≠ 0) {num den f : Nat}
    (hden : 0 < den) (hfine : f * den = num * twoPow 1076 * tenPow offset)
    (h : size.readsBack f = true) : nearest? num den = some size := by
  apply nearest?_of_within hsize hden
  apply within_of_readsBack hsize hden _ h
  have hsum : 1076 = 1074 + 2 := rfl
  have hfour : twoPow 2 = 4 := rfl
  rw [hfine, hsum, twoPow_add, hfour, ← Nat.mul_assoc num, Nat.mul_comm _ 4]

end Magnitude

end QueryLabel
