import QueryLabel.Proofs.Binary64.Rounding
import QueryLabel.Proofs.Text.Digits

/-!
The search for the shortest decimal ends with one that reads back (`shortest_readsBack`): seventeen
digits are always enough, because a grid of that many digits is narrower than the interval around
a magnitude.
-/

namespace QueryLabel

/-- Digits as they are written: there is one, and the first one is no zero. -/
structure Decimal.Normal (decimal : Decimal) : Prop where
  ne_nil : decimal.digits ≠ []
  isDigit : ∀ c ∈ decimal.digits, c.isDigit = true
  first : decimal.digits.head? ≠ some '0'

namespace Magnitude

variable {size : Magnitude} {tie : Tie}

/-- A decimal whose digits, counted from the last one, read back as a magnitude. -/
def ReadAs (size : Magnitude) (decimal : Decimal) : Prop :=
  ∃ q : Nat, decimal.exponent = (q : Int) - offset + (decimal.digits.length - 1 : Nat) ∧
    size.readsBack (Text.readDecimal decimal.digits * finePower q) = true

theorem readsBack_of_lt {f : Nat} (hlow : (4 * size.units - size.below) * tenPow offset < f)
    (hhigh : f < (4 * size.units + 2 * size.step) * tenPow offset) :
    size.readsBack f = true := by
  unfold readsBack
  simp only
  split
  · exact decide_eq_true ⟨Nat.le_of_lt hlow, Nat.le_of_lt hhigh⟩
  · exact decide_eq_true ⟨hlow, hhigh⟩

theorem readsBack_zero (hsize : size.units ≠ 0) : size.readsBack 0 = false := by
  have hle := size.below_le_units hsize
  have hlow : 0 < (4 * size.units - size.below) * tenPow offset :=
    Nat.mul_pos (by omega) (tenPow_pos offset)
  unfold readsBack
  simp only
  split
  · exact decide_eq_false fun h => by omega
  · exact decide_eq_false fun h => by omega

theorem ne_zero_of_readsBack (hsize : size.units ≠ 0) {n grid : Nat}
    (h : size.readsBack (n * grid) = true) : n ≠ 0 := by
  rintro rfl
  rw [Nat.zero_mul, readsBack_zero hsize] at h
  cases h

/-- What is taken from a grid reads back. -/
theorem readsBack_of_nearestOnGrid? {grid n : Nat} (h : size.nearestOnGrid? tie grid = some n) :
    size.readsBack (n * grid) = true := by
  unfold nearestOnGrid? at h
  simp only at h
  split at h
  · contradiction
  · next hdown _ =>
      cases h
      exact hdown
  · next hup =>
      cases h
      exact hup
  · next hdown hup =>
      split at h
      · cases h
        exact hdown
      split at h
      · cases h
        exact hup
      split at h
      · cases h
        exact hup
      · split at h
        · cases h
          exact hdown
        · cases h
          exact hup

/-- The interval around a magnitude is wider than the last of seventeen digits. -/
theorem width_gt (size : Magnitude) :
    4 * size.units < (size.below + 2 * size.step) * tenPow 16 := by
  have hproduct := size.mantissa_mul_step
  have hstep := size.step_pos
  have hten : tenPow 16 = 10000000000000000 := rfl
  have hbound : size.mantissa < 0x20000000000000 := div_excess_lt size.units
  by_cases hpower : size.mantissa = 0x10000000000000 ∧ 1 < size.step
  · have hbelow : size.below = size.step := if_pos hpower
    rw [hpower.1] at hproduct
    rw [hten]
    omega
  · have hbelow : size.below = 2 * size.step := if_neg hpower
    have hmul : (size.mantissa + 1) * size.step ≤ 0x20000000000000 * size.step :=
      Nat.mul_le_mul_right _ hbound
    rw [Nat.succ_mul] at hmul
    rw [hten]
    omega

theorem nearestOnGrid?_isSome_of_readsBack {grid : Nat}
    (h : size.readsBack (size.fine / grid * grid) = true ∨
      size.readsBack ((size.fine / grid + 1) * grid) = true) :
    (size.nearestOnGrid? tie grid).isSome = true := by
  unfold nearestOnGrid?
  simp only
  split
  · next hdown hup =>
      rw [hdown, hup] at h
      rcases h with h | h <;> contradiction
  · rfl
  · rfl
  · repeat' split
    all_goals rfl

/-- What is taken from a grid is one of the two neighbours. -/
theorem le_of_nearestOnGrid? {grid n : Nat} (h : size.nearestOnGrid? tie grid = some n) :
    n ≤ size.fine / grid + 1 := by
  unfold nearestOnGrid? at h
  simp only at h
  repeat' split at h
  · contradiction
  all_goals
    cases h
    omega

/-- On a grid so fine there is always a decimal that reads back. -/
theorem nearestOnGrid?_isSome (hsize : size.units ≠ 0) {grid : Nat} (hgrid : 0 < grid)
    (hfine : grid * tenPow 16 ≤ size.fine) : (size.nearestOnGrid? tie grid).isSome = true := by
  have hT := tenPow_pos offset
  have hbelow := size.below_le_units hsize
  have hdown : size.fine / grid * grid ≤ size.fine := Nat.div_mul_le_self _ _
  have hup : size.fine < size.fine / grid * grid + grid := Nat.lt_div_mul_add hgrid
  have hsucc : (size.fine / grid + 1) * grid = size.fine / grid * grid + grid :=
    Nat.succ_mul _ _
  have hunits : size.fine = 4 * size.units * tenPow offset := rfl
  have hlowFine : (4 * size.units - size.below) * tenPow offset ≤ size.fine :=
    Nat.mul_le_mul_right _ (Nat.sub_le _ _)
  have hstep := Nat.mul_pos size.step_pos hT
  have hhighFine : size.fine < (4 * size.units + 2 * size.step) * tenPow offset := by
    rw [hunits, Nat.add_mul, Nat.mul_assoc 2]
    omega
  apply nearestOnGrid?_isSome_of_readsBack
  by_cases hlow : (4 * size.units - size.below) * tenPow offset < size.fine / grid * grid
  · exact Or.inl (readsBack_of_lt hlow (Nat.lt_of_le_of_lt hdown hhighFine))
  by_cases hhigh : (size.fine / grid + 1) * grid <
      (4 * size.units + 2 * size.step) * tenPow offset
  · refine Or.inr (readsBack_of_lt ?_ hhigh)
    omega
  · -- Otherwise the interval lies between two neighbours of the grid, but it is wider.
    exfalso
    have hwide : (size.below + 2 * size.step) * tenPow offset ≤ grid := by
      have hsplit : (4 * size.units - size.below) * tenPow offset +
          (size.below + 2 * size.step) * tenPow offset =
            (4 * size.units + 2 * size.step) * tenPow offset := by
        rw [← Nat.add_mul, ← Nat.add_assoc, Nat.sub_add_cancel (by omega)]
      omega
    have hmul := Nat.mul_le_mul_right (tenPow 16) hwide
    have hgt := Nat.mul_lt_mul_of_pos_right size.width_gt hT
    rw [Nat.mul_right_comm] at hmul
    omega

/-- The search ends on the first grid that has a decimal. -/
theorem search_eq {power tries k : Nat} (hk : k < tries)
    (h : (size.nearestOnGrid? tie (finePower (power - k))).isSome = true) :
    ∃ n p, size.search tie power tries = (n, p) ∧
      size.nearestOnGrid? tie (finePower p) = some n ∧ power - k ≤ p := by
  induction tries generalizing power k with
  | zero => contradiction
  | succ tries ih =>
      unfold search
      split
      · next n hn => exact ⟨n, power, rfl, hn, Nat.sub_le _ _⟩
      · next hnone =>
          cases k with
          | zero =>
              rw [Nat.sub_zero, hnone] at h
              contradiction
          | succ k =>
              rw [Nat.sub_add_eq, Nat.sub_right_comm] at h ⊢
              exact ih (by omega) h

/-- The leading power is that of the first digit, and there are many more below it. -/
theorem leadingPower_spec (hsize : size.units ≠ 0) :
    16 ≤ size.leadingPower ∧ finePower size.leadingPower ≤ size.fine := by
  have hlarge : twoPow 1076 * tenPow 16 ≤ 4 * tenPow offset := by decide +kernel
  have hunits : 4 * 1 * tenPow offset ≤ size.fine :=
    Nat.mul_le_mul_right _ (Nat.mul_le_mul_left 4 (Nat.pos_of_ne_zero hsize))
  have hwhole : tenPow 16 ≤ size.fine / twoPow 1076 := by
    rw [Nat.le_div_iff_mul_le (twoPow_pos _), Nat.mul_comm]
    omega
  have hlength : ¬ (Text.decimal (size.fine / twoPow 1076)).length ≤ 16 := by
    rw [Text.length_decimal_le_iff (by decide)]
    omega
  have hlead : 16 ≤ size.leadingPower := by
    unfold leadingPower
    omega
  refine ⟨hlead, ?_⟩
  have hnot : ¬ (Text.decimal (size.fine / twoPow 1076)).length ≤ size.leadingPower := by
    unfold leadingPower
    omega
  rw [Text.length_decimal_le_iff (by omega), Nat.not_lt,
    Nat.le_div_iff_mul_le (twoPow_pos _), Nat.mul_comm] at hnot
  exact hnot

/-- There are no digits in front of the first one. -/
theorem fine_lt (size : Magnitude) : size.fine < finePower (size.leadingPower + 1) := by
  have hlength : (Text.decimal (size.fine / twoPow 1076)).length ≤ size.leadingPower + 1 := by
    unfold leadingPower
    omega
  rw [Text.length_decimal_le_iff (by omega), Nat.div_lt_iff_lt_mul (twoPow_pos _),
    Nat.mul_comm] at hlength
  exact hlength

theorem finePower_pos (power : Nat) : 0 < finePower power :=
  Nat.mul_pos (twoPow_pos _) (tenPow_pos _)

theorem tenPow_mul_finePower (k power : Nat) :
    tenPow k * finePower power = finePower (power + k) := by
  unfold finePower
  generalize twoPow 1076 = t
  rw [tenPow_add, Nat.mul_left_comm, Nat.mul_comm (tenPow k)]

/-- The search ends within seventeen digits. -/
theorem search_hit (tie : Tie) (hsize : size.units ≠ 0) :
    ∃ n p, size.search tie size.leadingPower 17 = (n, p) ∧
      size.nearestOnGrid? tie (finePower p) = some n ∧ size.leadingPower - 16 ≤ p := by
  obtain ⟨hlead, hfine⟩ := leadingPower_spec hsize
  have hgrid : finePower (size.leadingPower - 16) * tenPow 16 = finePower size.leadingPower := by
    rw [Nat.mul_comm, tenPow_mul_finePower, Nat.sub_add_cancel hlead]
  have hhit : (size.nearestOnGrid? tie (finePower (size.leadingPower - 16))).isSome = true :=
    nearestOnGrid?_isSome hsize (finePower_pos _) (by rwa [hgrid])
  exact search_eq (show 16 < 17 by decide) hhit

/-- What is found on a grid has no digits in front of the first one of the magnitude, or is the
power of ten there. -/
theorem le_tenPow_of_nearestOnGrid? {p n d : Nat}
    (h : size.nearestOnGrid? tie (finePower p) = some n)
    (hd : size.leadingPower + 1 ≤ p + d) : n ≤ tenPow d := by
  have hmany : finePower (size.leadingPower + 1) ≤ tenPow d * finePower p := by
    rw [tenPow_mul_finePower]
    exact Nat.mul_le_mul_left _ (Text.tenPow_le_tenPow hd)
  have hlt : size.fine / finePower p < tenPow d := by
    rw [Nat.div_lt_iff_lt_mul (finePower_pos p)]
    exact Nat.lt_of_lt_of_le size.fine_lt hmany
  exact Nat.le_trans (le_of_nearestOnGrid? h) hlt

/-- The search finds a decimal that reads back, and it has at most seventeen digits, or is the
power of ten behind them. -/
theorem search_readsBack (tie : Tie) (hsize : size.units ≠ 0) :
    ∃ n p, size.search tie size.leadingPower 17 = (n, p) ∧ n ≠ 0 ∧
      size.readsBack (n * finePower p) = true ∧ n ≤ tenPow 17 := by
  obtain ⟨n, p, hsearch, hn, hp⟩ := search_hit tie hsize
  have hreads := readsBack_of_nearestOnGrid? hn
  exact ⟨n, p, hsearch, ne_zero_of_readsBack hsize hreads, hreads,
    le_tenPow_of_nearestOnGrid? hn (by omega)⟩

/-! ### Digits -/

theorem stripZeros_append (digits : Text) :
    ∃ k, digits = stripZeros digits ++ List.replicate k '0' := by
  have hzeros : ∀ text : Text, ∃ k, text = List.replicate k '0' ++ text.dropWhile (· = '0') := by
    intro text
    induction text with
    | nil => exact ⟨0, rfl⟩
    | cons c text ih =>
        obtain ⟨k, hk⟩ := ih
        by_cases hc : c = '0'
        · refine ⟨k + 1, ?_⟩
          simp only [List.replicate_succ, List.cons_append, hc, decide_true,
            List.dropWhile_cons_of_pos]
          exact congrArg _ hk
        · exact ⟨0, by simp [hc]⟩
  obtain ⟨k, hk⟩ := hzeros digits.reverse
  refine ⟨k, ?_⟩
  have hreverse := congrArg List.reverse hk
  rwa [List.reverse_reverse, List.reverse_append, List.reverse_replicate] at hreverse

/-- The digits of a positive number without its trailing zeros. -/
theorem normal_stripZeros {n : Nat} (hn : n ≠ 0) (e : Int) :
    Decimal.Normal ⟨stripZeros (Text.decimal n), e⟩ := by
  have hfirst := Text.head?_decimal (Nat.pos_of_ne_zero hn)
  obtain ⟨k, hk⟩ := stripZeros_append (Text.decimal n)
  have hne : stripZeros (Text.decimal n) ≠ [] := by
    intro hnil
    rw [hnil, List.nil_append] at hk
    cases k with
    | zero => exact Text.decimal_ne_nil n hk
    | succ k =>
        rw [hk] at hfirst
        exact hfirst rfl
  refine ⟨hne, ?_, ?_⟩
  · intro c hc
    apply Text.isDigit_of_mem_decimal (n := n)
    rw [hk]
    exact List.mem_append_left _ hc
  · intro hhead
    rw [hk, List.head?_append, hhead] at hfirst
    exact hfirst rfl

theorem digits_shortest {n p : Nat} (h : size.search tie size.leadingPower 17 = (n, p)) :
    (size.shortest tie).digits = stripZeros (Text.decimal n) := by
  unfold shortest
  rw [h]

theorem length_stripZeros_le (digits : Text) : (stripZeros digits).length ≤ digits.length := by
  obtain ⟨k, hk⟩ := stripZeros_append digits
  have hlength := congrArg List.length hk
  rw [List.length_append] at hlength
  omega

/-- The shortest decimal has at most seventeen digits. -/
theorem length_shortest_le (tie : Tie) (hsize : size.units ≠ 0) :
    (size.shortest tie).digits.length ≤ 17 := by
  obtain ⟨n, p, hsearch, -, -, hn⟩ := search_readsBack tie hsize
  rw [digits_shortest hsearch]
  rcases Nat.lt_or_eq_of_le hn with hlt | rfl
  · exact Nat.le_trans (length_stripZeros_le _)
      ((Text.length_decimal_le_iff (by decide)).mpr hlt)
  · -- The power itself has one digit more, but all of them are zeros but the first.
    decide

/-- The shortest decimal is what the search found, without trailing zeros. -/
theorem shortest_of_search {n p : Nat} (hsearch : size.search tie size.leadingPower 17 = (n, p))
    (hn : n ≠ 0) : (size.shortest tie).Normal ∧
      ∃ k, n = Text.readDecimal (size.shortest tie).digits * tenPow k ∧
        (size.shortest tie).exponent =
          ((p + k : Nat) : Int) - offset + ((size.shortest tie).digits.length - 1 : Nat) := by
  have hshortest : size.shortest tie = ⟨stripZeros (Text.decimal n),
      (p : Int) - (offset : Int) + ((Text.decimal n).length - 1 : Nat)⟩ := by
    unfold shortest
    rw [hsearch]
  rw [hshortest]
  have hnormal := normal_stripZeros hn ((p : Int) - (offset : Int) +
    ((Text.decimal n).length - 1 : Nat))
  refine ⟨hnormal, ?_⟩
  obtain ⟨k, hk⟩ := stripZeros_append (Text.decimal n)
  have hlength : (Text.decimal n).length = (stripZeros (Text.decimal n)).length + k := by
    conv => lhs; rw [hk]
    simp
  have hpos : 0 < (stripZeros (Text.decimal n)).length :=
    List.length_pos_iff.mpr hnormal.ne_nil
  refine ⟨k, ?_, ?_⟩
  · conv => lhs; rw [← Text.readDecimal_decimal n, hk]
    rw [Text.readDecimal_append, Text.readDecimal_zeros, List.length_replicate, Nat.add_zero]
  · simp only
    omega

/-- The shortest decimal is written with digits that read back. -/
theorem shortest_readsBack (tie : Tie) (hsize : size.units ≠ 0) :
    (size.shortest tie).Normal ∧ size.ReadAs (size.shortest tie) := by
  obtain ⟨n, p, hsearch, hn, hreads, -⟩ := search_readsBack tie hsize
  obtain ⟨hnormal, k, hvalue, hexponent⟩ := shortest_of_search hsearch hn
  refine ⟨hnormal, p + k, hexponent, ?_⟩
  rwa [hvalue, Nat.mul_assoc, tenPow_mul_finePower] at hreads

end Magnitude

end QueryLabel
