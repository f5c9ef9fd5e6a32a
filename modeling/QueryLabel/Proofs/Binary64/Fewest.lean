import QueryLabel.Proofs.Binary64.Correct

/-!
The shortest decimal of a magnitude, said without a search: it is rounded to the magnitude, no
decimal that is rounded to it has fewer digits, and none with as many is nearer (`IsShortest`).  The
search from coarse grids to fine ones ends with such a decimal (`isShortest_shortest`), because what
is rounded to a magnitude has no gaps (`Covers.between`), so that the two neighbours on a grid speak
for all of it.
-/

namespace QueryLabel

namespace Decimal

variable {decimal : Decimal}

/-- The number that a decimal is. -/
def value (decimal : Decimal) : ℚ :=
  Text.readDecimal decimal.digits / tenPow (decimal.digits.length - 1) *
    powerOfTen decimal.exponent

/-- A decimal is as short as it can be for a magnitude: it is rounded to it, no other decimal that
is rounded to it has fewer digits, and none with as many is nearer. -/
structure IsShortest (decimal : Decimal) (size : Magnitude) : Prop where
  normal : decimal.Normal
  covers : size.Covers decimal.value
  fewest : ∀ other : Decimal, other.Normal → size.Covers other.value →
    decimal.digits.length ≤ other.digits.length
  nearest : ∀ other : Decimal, other.Normal → size.Covers other.value →
    other.digits.length = decimal.digits.length →
      |size.value - decimal.value| ≤ |size.value - other.value|

/-- The digits, counted from the last one. -/
theorem value_eq (decimal : Decimal) :
    decimal.value = Text.readDecimal decimal.digits *
      powerOfTen (decimal.exponent - (decimal.digits.length - 1 : Nat)) := by
  have hten := powerOfTen_pos (decimal.digits.length - 1 : Nat)
  have hsplit := powerOfTen_add (decimal.digits.length - 1 : Nat)
    (decimal.exponent - (decimal.digits.length - 1 : Nat))
  rw [add_sub_cancel] at hsplit
  rw [value, hsplit, ← powerOfTen_natCast, ← mul_assoc, div_mul_cancel₀ _ hten.ne']

/-- A decimal is less than the power of ten in front of its first digit. -/
theorem Normal.value_lt (h : decimal.Normal) :
    decimal.value < powerOfTen (decimal.exponent + 1) := by
  have hlength : 0 < decimal.digits.length := List.length_pos_iff.mpr h.ne_nil
  have hlt : (Text.readDecimal decimal.digits : ℚ) < powerOfTen decimal.digits.length :=
    Nat.cast_lt.mpr (Text.readDecimal_lt h.isDigit)
  have hsum : decimal.exponent + 1 = decimal.digits.length +
      (decimal.exponent - (decimal.digits.length - 1 : Nat)) := by omega
  rw [value_eq, hsum, powerOfTen_add]
  exact mul_lt_mul_of_pos_right hlt (powerOfTen_pos _)

/-- Two shortest decimals are equal, or the magnitude is in the middle between them. -/
theorem IsShortest.eq_or_middle {size : Magnitude} {other : Decimal} (h : decimal.IsShortest size)
    (h' : other.IsShortest size) :
    decimal.value = other.value ∨ 2 * size.value = decimal.value + other.value := by
  have hlength : other.digits.length = decimal.digits.length :=
    Nat.le_antisymm (h'.fewest decimal h.normal h.covers) (h.fewest other h'.normal h'.covers)
  have hsame := le_antisymm (h.nearest other h'.normal h'.covers hlength)
    (h'.nearest decimal h.normal h.covers hlength.symm)
  rcases abs_eq_abs.mp hsame with heq | hopposite
  · left
    linarith
  · right
    linarith

end Decimal

namespace Magnitude

variable {size : Magnitude} {tie : Tie} {q r : ℚ}

/-! ### The interval of a magnitude -/

theorem two_mul_le_of_nearer {u a b : ℚ} (hab : a < b) (h : |u - a| ≤ |u - b|) :
    2 * u ≤ a + b := by
  by_contra hlt
  have hpos : 0 ≤ u - a := by linarith
  rw [abs_of_nonneg hpos] at h
  rcases abs_choice (u - b) with hside | hside <;> rw [hside] at h <;> linarith

theorem le_two_mul_of_nearer {u a b : ℚ} (hba : b < a) (h : |u - a| ≤ |u - b|) :
    a + b ≤ 2 * u := by
  by_contra hlt
  have hneg : u - a ≤ 0 := by linarith
  rw [abs_of_nonpos hneg] at h
  rcases abs_choice (u - b) with hside | hside <;> rw [hside] at h <;> linarith

/-- From the middle between two numbers both are as far. -/
theorem dist_eq_of_middle {u a b : ℚ} (h : 2 * u = a + b) : |u - b| = |u - a| := by
  have hb : u - b = -(u - a) := by linarith
  rw [hb, abs_neg]

/-- The next magnitude below, half as many steps away as decimals that read back reach. -/
theorem exists_under (hsize : size.units ≠ 0) :
    ∃ under : Magnitude, 2 * under.units + size.below = 2 * size.units := by
  have hproduct := size.mantissa_mul_step
  have hmantissa : size.mantissa < 0x20000000000000 := div_excess_lt size.units
  have hlt : ∀ n ≤ size.units, n.log2 < 2098 := by
    intro n hn
    by_cases hzero : n = 0
    · rw [hzero]
      decide
    · exact (log2_lt_iff hzero _).mpr (Nat.lt_of_le_of_lt hn size.units_lt)
  by_cases hpower : size.mantissa = 0x10000000000000 ∧ 1 < size.step
  · have hbelow : size.below = size.step := if_pos hpower
    obtain ⟨e, he⟩ : ∃ e, excess size.units = e + 1 := by
      apply Nat.exists_eq_succ_of_ne_zero
      intro hzero
      rw [step_eq, hzero] at hpower
      exact absurd hpower.2 (by decide)
    have hstep := step_of_excess he
    rw [hpower.1, hstep] at hproduct
    have hunits : 0x1FFFFFFFFFFFFF * twoPow e + twoPow e = size.units := by omega
    refine ⟨⟨0x1FFFFFFFFFFFFF * twoPow e, short_of_le (by decide) e, hlt _ (by omega)⟩, ?_⟩
    simp only
    omega
  · have hbelow : size.below = 2 * size.step := if_neg hpower
    have hpos := size.mantissa_pos hsize
    have hsplit : (size.mantissa - 1) * size.step + size.step = size.units := by
      rw [← Nat.succ_mul, Nat.succ_eq_add_one, Nat.sub_add_cancel hpos, hproduct]
    refine ⟨⟨(size.mantissa - 1) * size.step, short_of_le (by omega) _, hlt _ (by omega)⟩, ?_⟩
    simp only
    omega

/-- The lower end, in quarters of a unit; it belongs to an even mantissa only. -/
theorem Covers.low (h : size.Covers q) (hsize : size.units ≠ 0) :
    (4 * size.units : ℚ) ≤ 4 * (q * twoPow 1074) + size.below ∧
      ((4 * size.units : ℚ) = 4 * (q * twoPow 1074) + size.below → size.mantissa % 2 = 0) := by
  obtain ⟨under, hunder⟩ := exists_under hsize
  have hstep := size.step_pos
  have hpos : 0 < size.below := by
    unfold Magnitude.below
    split <;> omega
  have hlt : (under.units : ℚ) < size.units := Nat.cast_lt.mpr (by omega)
  have hgap : (2 * under.units + size.below : ℚ) = 2 * size.units := by exact_mod_cast hunder
  obtain ⟨hleast, heven⟩ := nearestTo_iff.mp h.nearest
  constructor
  · have hmiddle := le_two_mul_of_nearer hlt (hleast under)
    linarith
  · intro hend
    refine heven under (fun hsame => ?_) (dist_eq_of_middle (by linarith))
    rw [hsame] at hlt
    exact lt_irrefl _ hlt

/-- The upper end, in quarters of a unit; it belongs to an even mantissa only. -/
theorem Covers.high (h : size.Covers q) :
    4 * (q * twoPow 1074) ≤ (4 * size.units + 2 * size.step : ℚ) ∧
      (4 * (q * twoPow 1074) = (4 * size.units + 2 * size.step : ℚ) →
        size.mantissa % 2 = 0) := by
  have hstep : (0 : ℚ) < size.step := Nat.cast_pos.mpr size.step_pos
  by_cases habove : size.units + size.step < twoPow 2098
  · obtain ⟨above, habove⟩ := exists_above habove
    have hgap : (above.units : ℚ) = size.units + size.step := by exact_mod_cast habove
    have hlt : (size.units : ℚ) < above.units := by linarith
    obtain ⟨hleast, heven⟩ := nearestTo_iff.mp h.nearest
    constructor
    · have hmiddle := two_mul_le_of_nearer hlt (hleast above)
      linarith
    · intro hend
      refine heven above (fun hsame => ?_) (dist_eq_of_middle (by linarith))
      rw [hsame] at hlt
      exact lt_irrefl _ hlt
  · -- The largest magnitude ends where numbers become infinite.
    have htop : (0x20000000000000 * twoPow 2045 : ℚ) ≤ size.units + size.step := by
      exact_mod_cast (twoPow_53_add 2045).symm.trans_le (Nat.not_lt.mp habove)
    have hle : (size.step : ℚ) ≤ twoPow 2045 := Nat.cast_le.mpr size.step_le
    have hover := mul_lt_mul_of_pos_right h.below (cast_twoPow_pos 1074)
    rw [overflow_units] at hover
    constructor
    · linarith
    · intro hend
      linarith

/-- A number of small units, in units. -/
theorem div_finePower_mul (f : ℚ) :
    4 * (f / finePower offset * twoPow 1074) = f / tenPow offset := by
  have hunit := cast_twoPow_pos 1074
  have hten : (0 : ℚ) < tenPow offset := Nat.cast_pos.mpr (tenPow_pos offset)
  have hfour : (twoPow 1076 : ℚ) = 2 * (2 * twoPow 1074) := by
    rw [← cast_twoPow_succ, ← cast_twoPow_succ]
  have hfine : (finePower offset : ℚ) = 2 * (2 * twoPow 1074) * tenPow offset := by
    rw [finePower, Nat.cast_mul, hfour]
  rw [hfine]
  generalize (twoPow 1074 : ℚ) = t at *
  generalize (tenPow offset : ℚ) = s at *
  field_simp
  ring

theorem value_eq_fine (size : Magnitude) : size.value = size.fine / finePower offset := by
  have hunit := cast_twoPow_pos 1074
  have hten : (0 : ℚ) < tenPow offset := Nat.cast_pos.mpr (tenPow_pos offset)
  apply mul_right_cancel₀ hunit.ne'
  have hfine := div_finePower_mul size.fine
  have hwhole : (size.fine : ℚ) / tenPow offset = 4 * size.units := by
    rw [fine, Nat.cast_mul, mul_div_cancel_right₀ _ hten.ne']
    push_cast
    rfl
  rw [value, div_mul_cancel₀ _ hunit.ne']
  linarith

/-- Small units that read back are exactly those that are rounded to the magnitude. -/
theorem readsBack_iff_covers (hsize : size.units ≠ 0) (f : Nat) :
    size.readsBack f = true ↔ size.Covers (f / finePower offset) := by
  constructor
  · intro hreads
    refine covers_of_nearest? (finePower_pos offset) ?_
    refine nearest?_of_readsBack hsize (finePower_pos offset) ?_ hreads
    rw [finePower, Nat.mul_assoc]
  · intro hcovers
    have hten : (0 : ℚ) < tenPow offset := Nat.cast_pos.mpr (tenPow_pos offset)
    have hbelow := size.below_le_units hsize
    obtain ⟨hlow, hlowEnd⟩ := hcovers.low hsize
    obtain ⟨hhigh, hhighEnd⟩ := hcovers.high
    rw [div_finePower_mul] at hlow hlowEnd hhigh hhighEnd
    have hlowNat : (4 * size.units - size.below) * tenPow offset ≤ f := by
      have hle : (4 * size.units - size.below : ℚ) * tenPow offset ≤ f := by
        rw [← le_div_iff₀ hten]
        linarith
      have hcast : ((4 * size.units - size.below : Nat) : ℚ) = 4 * size.units - size.below := by
        rw [Nat.cast_sub (by omega), Nat.cast_mul]
        rfl
      rw [← hcast] at hle
      exact_mod_cast hle
    have hhighNat : f ≤ (4 * size.units + 2 * size.step) * tenPow offset := by
      have hle := (div_le_iff₀ hten).mp hhigh
      exact_mod_cast hle
    unfold readsBack
    simp only
    split
    · exact decide_eq_true ⟨hlowNat, hhighNat⟩
    · next hodd =>
        refine decide_eq_true ⟨lt_of_le_of_ne hlowNat fun hend => hodd (hlowEnd ?_),
          lt_of_le_of_ne hhighNat fun hend => hodd (hhighEnd ?_)⟩
        · rw [← hend, Nat.cast_mul, mul_div_cancel_right₀ _ hten.ne', Nat.cast_sub (by omega)]
          push_cast
          ring
        · rw [hend, Nat.cast_mul, mul_div_cancel_right₀ _ hten.ne']
          push_cast
          rfl

theorem Covers.between {s : ℚ} (h : size.Covers q) (hs : s < overflow)
    (hr : |q - size.value| = |q - s| + |s - size.value|) : size.Covers s :=
  ⟨hs, h.nearest.between hr⟩

/-- What lies between a magnitude and a number of small units that is rounded to it is rounded to
it as well. -/
theorem covers_of_between {f s : ℚ} (h : size.Covers (f / finePower offset))
    (hs : f ≤ s ∧ s ≤ size.fine ∨ (size.fine : ℚ) ≤ s ∧ s ≤ f) :
    size.Covers (s / finePower offset) := by
  have hpos : (0 : ℚ) < finePower offset := Nat.cast_pos.mpr (finePower_pos offset)
  have hbelow := h.below
  have hvalue := size.value_lt_overflow
  rw [value_eq_fine] at hvalue
  refine h.between ?_ ?_
  · rcases hs with ⟨-, hle⟩ | ⟨-, hle⟩
    · exact (div_le_div_of_nonneg_right hle hpos.le).trans_lt hvalue
    · exact (div_le_div_of_nonneg_right hle hpos.le).trans_lt hbelow
  · have hsum : |f - size.fine| = |f - s| + |s - size.fine| := by
      rcases hs with ⟨hlow, hhigh⟩ | ⟨hlow, hhigh⟩
      · rw [abs_of_nonpos (by linarith), abs_of_nonpos (by linarith), abs_of_nonpos (by linarith)]
        ring
      · rw [abs_of_nonneg (by linarith), abs_of_nonneg (by linarith), abs_of_nonneg (by linarith)]
        ring
    rw [value_eq_fine, ← sub_div, ← sub_div, ← sub_div, abs_div, abs_div, abs_div, ← add_div, hsum]

/-! ### Grids -/

/-- A number of small units does not lie between the two neighbours of a magnitude on a grid. -/
def Outside (size : Magnitude) (grid : Nat) (f : ℚ) : Prop :=
  f ≤ (size.fine / grid * grid : Nat) ∨ ((size.fine / grid + 1) * grid : Nat) ≤ f

section Grids

variable {grid n : Nat} {f : ℚ}

theorem outside_mul (size : Magnitude) (grid j : Nat) :
    size.Outside grid ((j * grid : Nat) : ℚ) := by
  rcases Nat.lt_or_ge (size.fine / grid) j with hlt | hge
  · exact Or.inr (Nat.cast_le.mpr (Nat.mul_le_mul_right _ hlt))
  · exact Or.inl (Nat.cast_le.mpr (Nat.mul_le_mul_right _ hge))

/-- A magnitude between its neighbours on a grid. -/
theorem fine_bounds (size : Magnitude) (hgrid : 0 < grid) :
    ((size.fine / grid * grid : Nat) : ℚ) ≤ size.fine ∧
      (size.fine : ℚ) ≤ ((size.fine / grid + 1) * grid : Nat) := by
  refine ⟨Nat.cast_le.mpr (Nat.div_mul_le_self _ _), Nat.cast_le.mpr ?_⟩
  rw [Nat.succ_mul]
  exact Nat.le_of_lt (Nat.lt_div_mul_add hgrid)

/-- If a number behind a neighbour is rounded to the magnitude, then so is the neighbour. -/
theorem readsBack_neighbour (hsize : size.units ≠ 0) (hgrid : 0 < grid)
    (h : size.Covers (f / finePower offset)) :
    (f ≤ (size.fine / grid * grid : Nat) → size.readsBack (size.fine / grid * grid) = true) ∧
      (((size.fine / grid + 1) * grid : Nat) ≤ f →
        size.readsBack ((size.fine / grid + 1) * grid) = true) := by
  obtain ⟨hdown, hup⟩ := size.fine_bounds hgrid
  constructor
  · intro hf
    exact (readsBack_iff_covers hsize _).mpr (covers_of_between h (Or.inl ⟨hf, hdown⟩))
  · intro hf
    exact (readsBack_iff_covers hsize _).mpr (covers_of_between h (Or.inr ⟨hup, hf⟩))

/-- One neighbour is taken if the other one does not read back or is no nearer. -/
theorem nearestOnGrid?_cases (h : size.nearestOnGrid? tie grid = some n) :
    (n = size.fine / grid ∧ (size.readsBack ((size.fine / grid + 1) * grid) = false ∨
        2 * (size.fine % grid) ≤ grid)) ∨
      (n = size.fine / grid + 1 ∧ (size.readsBack (size.fine / grid * grid) = false ∨
        grid ≤ 2 * (size.fine % grid))) := by
  unfold nearestOnGrid? at h
  simp only at h
  split at h
  · cases h
  · next hup =>
      cases h
      exact Or.inl ⟨rfl, Or.inl hup⟩
  · next hdown _ =>
      cases h
      exact Or.inr ⟨rfl, Or.inl hdown⟩
  split at h
  · next hlow =>
      cases h
      exact Or.inl ⟨rfl, Or.inr hlow.le⟩
  split at h
  · next hhigh =>
      cases h
      exact Or.inr ⟨rfl, Or.inr hhigh.le⟩
  next hlow hhigh =>
  split at h
  · cases h
    exact Or.inr ⟨rfl, Or.inr (Nat.not_lt.mp hlow)⟩
  · split at h
    · cases h
      exact Or.inl ⟨rfl, Or.inr (Nat.not_lt.mp hhigh)⟩
    · cases h
      exact Or.inr ⟨rfl, Or.inr (Nat.not_lt.mp hlow)⟩

/-- What is taken from a grid is nearest among all that is rounded to the magnitude and is not
between the neighbours. -/
theorem nearest_of_nearestOnGrid? (hsize : size.units ≠ 0) (hgrid : 0 < grid)
    (h : size.nearestOnGrid? tie grid = some n) (hf : size.Outside grid f)
    (hcovers : size.Covers (f / finePower offset)) :
    |(size.fine : ℚ) - (n * grid : Nat)| ≤ |(size.fine : ℚ) - f| := by
  obtain ⟨hdown, hup⟩ := size.fine_bounds hgrid
  obtain ⟨hreadsDown, hreadsUp⟩ := readsBack_neighbour hsize hgrid hcovers
  have hsplit : ((size.fine / grid * grid : Nat) : ℚ) + (size.fine % grid : Nat) = size.fine := by
    exact_mod_cast Nat.div_add_mod' _ _
  have hsucc : (((size.fine / grid + 1) * grid : Nat) : ℚ) =
      (size.fine / grid * grid : Nat) + grid := by
    rw [Nat.succ_mul, Nat.cast_add]
  rcases nearestOnGrid?_cases h with ⟨rfl, hother⟩ | ⟨rfl, hother⟩
  · rw [abs_of_nonneg (sub_nonneg.mpr hdown)]
    rcases hf with hlow | hhigh
    · rw [abs_of_nonneg (by linarith)]
      linarith
    · have hrest : (2 * (size.fine % grid : Nat) : ℚ) ≤ grid := by
        exact_mod_cast hother.resolve_left (by rw [hreadsUp hhigh]; decide)
      rw [abs_of_nonpos (by linarith)]
      linarith
  · rw [abs_of_nonpos (sub_nonpos.mpr hup)]
    rcases hf with hlow | hhigh
    · have hrest : (grid : ℚ) ≤ 2 * (size.fine % grid : Nat) := by
        exact_mod_cast hother.resolve_left (by rw [hreadsDown hlow]; decide)
      rw [abs_of_nonneg (by linarith)]
      linarith
    · rw [abs_of_nonpos (by linarith)]
      linarith

/-- If nothing is taken from a grid, all that is rounded to the magnitude is between the
neighbours. -/
theorem not_covers_of_nearestOnGrid? (hsize : size.units ≠ 0) (hgrid : 0 < grid)
    (h : size.nearestOnGrid? tie grid = none) (hf : size.Outside grid f) :
    ¬ size.Covers (f / finePower offset) := by
  intro hcovers
  obtain ⟨hdown, hup⟩ := readsBack_neighbour hsize hgrid hcovers
  have hsome := @nearestOnGrid?_isSome_of_readsBack size tie grid (hf.imp hdown hup)
  rw [h] at hsome
  cases hsome

end Grids

/-! ### The search -/

/-- The search ends on the first grid on which something is found. -/
theorem search_first {power tries n p : Nat} (h : size.search tie power tries = (n, p)) :
    p ≤ power ∧ (p = power ∨ size.nearestOnGrid? tie (finePower (p + 1)) = none) := by
  induction tries generalizing power with
  | zero =>
      cases h
      exact ⟨le_rfl, Or.inl rfl⟩
  | succ tries ih =>
      unfold search at h
      split at h
      · cases h
        exact ⟨le_rfl, Or.inl rfl⟩
      · next hnone =>
          obtain ⟨hle, hfirst⟩ := ih h
          refine ⟨hle.trans (Nat.sub_le _ _), ?_⟩
          rcases hfirst with rfl | hfirst
          · cases power with
            | zero => exact Or.inl rfl
            | succ power => exact Or.inr hnone
          · exact Or.inr hfirst

/-! ### Decimals on grids -/

/-- A power of ten, in small units. -/
theorem powerOfTen_mul_finePower (p : Nat) :
    powerOfTen ((p : Int) - offset) * finePower offset = finePower p := by
  have hsum : powerOfTen ((p : Int) - offset) * powerOfTen offset = powerOfTen p := by
    rw [← powerOfTen_add, sub_add_cancel]
  rw [powerOfTen_natCast, powerOfTen_natCast] at hsum
  rw [finePower, finePower, Nat.cast_mul, Nat.cast_mul, mul_left_comm, hsum]

section Found

variable {n p : Nat}

/-- A decimal with so few digits is on the grid, or it is below the first digit of the
magnitude. -/
theorem outside_of_few (hsize : size.units ≠ 0) {other : Decimal} (h : other.Normal)
    (hlength : other.digits.length + p ≤ size.leadingPower + 1) :
    size.Outside (finePower p) (other.value * finePower offset) := by
  have hpos : 0 < other.digits.length := List.length_pos_iff.mpr h.ne_nil
  have hfine : (0 : ℚ) < finePower offset := Nat.cast_pos.mpr (finePower_pos offset)
  by_cases hlead : other.exponent < (size.leadingPower : Int) - offset
  · -- The power of ten of that digit is on the grid, and not above the magnitude.
    left
    obtain ⟨-, hfirst⟩ := leadingPower_spec hsize
    have hpower : finePower size.leadingPower ≤ size.fine / finePower p * finePower p := by
      have hsplit := tenPow_mul_finePower (size.leadingPower - p) p
      rw [Nat.add_sub_cancel' (by omega)] at hsplit
      rw [← hsplit] at hfirst ⊢
      exact Nat.mul_le_mul_right _ ((Nat.le_div_iff_mul_le (finePower_pos p)).mpr hfirst)
    have hlt : other.value < powerOfTen ((size.leadingPower : Int) - offset) :=
      h.value_lt.trans_le (powerOfTen_le hlead)
    have hmul := mul_lt_mul_of_pos_right hlt hfine
    rw [powerOfTen_mul_finePower] at hmul
    exact hmul.le.trans (Nat.cast_le.mpr hpower)
  · obtain ⟨k, hk⟩ := Int.eq_ofNat_of_zero_le (a := other.exponent -
      (other.digits.length - 1 : Nat) - ((p : Int) - offset)) (by omega)
    have hsum : other.exponent - (other.digits.length - 1 : Nat) =
        (k : Int) + ((p : Int) - offset) := by omega
    have hvalue : other.value * finePower offset =
        ((Text.readDecimal other.digits * tenPow k * finePower p : Nat) : ℚ) := by
      rw [Decimal.value_eq, hsum, powerOfTen_add, mul_assoc, mul_assoc, powerOfTen_mul_finePower,
        powerOfTen_natCast, ← mul_assoc]
      push_cast
      rfl
    rw [hvalue]
    exact size.outside_mul _ _

/-- The value of what the search found. -/
theorem value_shortest (hsearch : size.search tie size.leadingPower 17 = (n, p)) (hn : n ≠ 0) :
    (size.shortest tie).value = ((n * finePower p : Nat) : ℚ) / finePower offset := by
  have hfine : (0 : ℚ) < finePower offset := Nat.cast_pos.mpr (finePower_pos offset)
  obtain ⟨-, k, hvalue, hexponent⟩ := shortest_of_search hsearch hn
  have hsum : (size.shortest tie).exponent - ((size.shortest tie).digits.length - 1 : Nat) =
      (k : Int) + ((p : Int) - offset) := by omega
  rw [eq_div_iff hfine.ne', Decimal.value_eq, hsum, powerOfTen_add, mul_assoc, mul_assoc,
    powerOfTen_mul_finePower, powerOfTen_natCast, ← mul_assoc, Nat.cast_mul, hvalue, Nat.cast_mul]

/-- What the search found has no digits in front of the first one of the magnitude. -/
theorem length_shortest_search (hsize : size.units ≠ 0)
    (hsearch : size.search tie size.leadingPower 17 = (n, p))
    (hn : size.nearestOnGrid? tie (finePower p) = some n) :
    (size.shortest tie).digits.length + p ≤ size.leadingPower + 1 := by
  obtain ⟨hp, hfirst⟩ := search_first hsearch
  obtain ⟨d, hd⟩ : ∃ d, size.leadingPower + 1 = p + (d + 1) :=
    ⟨size.leadingPower - p, by omega⟩
  rw [digits_shortest hsearch]
  rcases Nat.lt_or_eq_of_le (le_tenPow_of_nearestOnGrid? hn hd.le) with hlt | rfl
  · have hlength := (Text.length_decimal_le_iff (Nat.succ_pos d)).mpr hlt
    have hstrip := length_stripZeros_le (Text.decimal n)
    omega
  · rcases hfirst with rfl | hnone
    · have hd' : d = 0 := by omega
      subst hd'
      have hone : (stripZeros (Text.decimal (tenPow (0 + 1)))).length = 1 := by decide
      omega
    · -- The power of ten is on the grid before as well, but nothing was found there.
      exfalso
      have hreads := readsBack_of_nearestOnGrid? hn
      have hgrid : tenPow (d + 1) * finePower p = tenPow d * finePower (p + 1) := by
        rw [tenPow_mul_finePower, tenPow_mul_finePower]
        congr 1
        omega
      rw [hgrid] at hreads
      exact not_covers_of_nearestOnGrid? hsize (finePower_pos _) hnone (size.outside_mul _ _)
        ((readsBack_iff_covers hsize _).mp hreads)

/-- The search finds a shortest decimal. -/
theorem isShortest_shortest (tie : Tie) (hsize : size.units ≠ 0) :
    (size.shortest tie).IsShortest size := by
  have hfine : (0 : ℚ) < finePower offset := Nat.cast_pos.mpr (finePower_pos offset)
  obtain ⟨n, p, hsearch, hn, -⟩ := search_hit tie hsize
  have hreads := readsBack_of_nearestOnGrid? hn
  have hne := ne_zero_of_readsBack hsize hreads
  obtain ⟨hp, hfirst⟩ := search_first hsearch
  have hvalue := value_shortest hsearch hne
  have hlength := length_shortest_search hsize hsearch hn
  have hscale : ∀ other : Decimal, other.value * finePower offset / finePower offset =
      other.value := fun other => mul_div_cancel_right₀ _ hfine.ne'
  refine ⟨(shortest_of_search hsearch hne).1, ?_, ?_, ?_⟩
  · rw [hvalue]
    exact (readsBack_iff_covers hsize _).mp hreads
  · intro other hnormal hcovers
    by_contra hfewer
    have hpos : 0 < other.digits.length := List.length_pos_iff.mpr hnormal.ne_nil
    have hnone := hfirst.resolve_left (by omega)
    have houtside := outside_of_few hsize (p := p + 1) hnormal (by omega)
    rw [← hscale other] at hcovers
    exact not_covers_of_nearestOnGrid? hsize (finePower_pos _) hnone houtside hcovers
  · intro other hnormal hcovers hsame
    have houtside := outside_of_few hsize (p := p) hnormal (by omega)
    rw [← hscale other] at hcovers
    have hnear := nearest_of_nearestOnGrid? hsize (finePower_pos p) hn houtside hcovers
    rw [hvalue, value_eq_fine, ← sub_div, ← hscale other, ← sub_div, abs_div, abs_div]
    exact div_le_div_of_nonneg_right hnear (abs_nonneg _)

end Found

end Magnitude

end QueryLabel
