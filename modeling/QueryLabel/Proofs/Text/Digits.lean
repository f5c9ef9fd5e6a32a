import QueryLabel.Power
import QueryLabel.Text.Basic

/-!
Rows of digits.  A decimal spells its number and begins with no zero; a row of digits is read as
the number that it denotes, and ends in front of the first other character; four hexadecimal digits
spell everything below 2^16.
-/

namespace QueryLabel.Text

theorem readDecimal_eq (text : Text) : readDecimal text = Nat.ofDigitChars 10 text 0 := by
  rw [Nat.ofDigitChars_eq_foldl]
  unfold readDecimal
  simp only [Nat.mul_comm]

theorem readDecimal_append (a b : Text) :
    readDecimal (a ++ b) = readDecimal a * tenPow b.length + readDecimal b := by
  rw [readDecimal_eq, readDecimal_eq, readDecimal_eq, Nat.ofDigitChars_append,
    Nat.ofDigitChars_eq_ofDigitChars_zero, Nat.mul_comm]
  rfl

theorem readDecimal_cons (d : Char) (digits : Text) :
    readDecimal (d :: digits) = readDecimal [d] * tenPow digits.length + readDecimal digits :=
  readDecimal_append [d] digits

theorem digit_bounds {d : Char} (h : d.isDigit = true) : 48 ≤ d.toNat ∧ d.toNat ≤ 57 := by
  simp only [Char.isDigit, Bool.and_eq_true, decide_eq_true_eq] at h
  exact ⟨h.1, h.2⟩

theorem readDecimal_digit_lt {d : Char} (h : d.isDigit = true) : readDecimal [d] < 10 := by
  have hbounds := digit_bounds h
  change 0 * 10 + (d.toNat - 48) < 10
  omega

theorem readDecimal_digit_pos {d : Char} (h : d.isDigit = true) (hd : d ≠ '0') :
    0 < readDecimal [d] := by
  have hbounds := digit_bounds h
  have hne : d.toNat ≠ 48 := fun heq => hd (Char.toNat_inj.mp heq)
  change 0 < 0 * 10 + (d.toNat - 48)
  omega

theorem readDecimal_digit_inj {c d : Char} (hc : c.isDigit = true) (hd : d.isDigit = true)
    (h : readDecimal [c] = readDecimal [d]) : c = d := by
  have hboundsC := digit_bounds hc
  have hboundsD := digit_bounds hd
  change 0 * 10 + (c.toNat - 48) = 0 * 10 + (d.toNat - 48) at h
  exact Char.toNat_inj.mp (by omega)

/-- So many digits stay below the power of ten that counts them. -/
theorem readDecimal_lt {digits : Text} (h : ∀ d ∈ digits, d.isDigit = true) :
    readDecimal digits < tenPow digits.length := by
  induction digits with
  | nil => exact tenPow_pos 0
  | cons d digits ih =>
      obtain ⟨hd, hdigits⟩ := List.forall_mem_cons.mp h
      have hmul := Nat.mul_le_mul_right (tenPow digits.length)
        (Nat.succ_le_of_lt (readDecimal_digit_lt hd))
      rw [Nat.succ_mul] at hmul
      have hrest := ih hdigits
      have hten : tenPow (digits.length + 1) = 10 * tenPow digits.length := by
        rw [Nat.add_comm, tenPow_add]
        rfl
      rw [readDecimal_cons, List.length_cons, hten]
      omega

/-- A decimal is read as its number. -/
theorem readDecimal_decimal (n : Nat) : readDecimal (decimal n) = n := by
  rw [readDecimal_eq]
  exact Nat.ofDigitChars_ten_toDigits

theorem readDecimal_zeros (k : Nat) : readDecimal (List.replicate k '0') = 0 := by
  rw [readDecimal_eq, Nat.ofDigitChars_replicate_zero, Nat.mul_zero]

theorem isDigit_of_mem_decimal {n : Nat} {c : Char} (h : c ∈ decimal n) : c.isDigit = true :=
  Nat.isDigit_of_mem_toDigits (by decide) (by decide) h

theorem decimal_ne_nil (n : Nat) : decimal n ≠ [] :=
  Nat.toDigits_ne_nil

/-- A number has at most `k` decimal digits exactly when it is below `tenPow k`. -/
theorem length_decimal_le_iff {n k : Nat} (hk : 0 < k) :
    (decimal n).length ≤ k ↔ n < tenPow k :=
  Nat.length_toDigits_le_iff (by decide) hk

theorem tenPow_le_tenPow {a b : Nat} (h : a ≤ b) : tenPow a ≤ tenPow b :=
  Nat.pow_le_pow_right (by decide) h

/-- A positive number is at least the power of ten that its first digit counts. -/
theorem tenPow_le_of_decimal {n : Nat} (hn : n ≠ 0) :
    tenPow ((decimal n).length - 1) ≤ n := by
  by_cases hone : (decimal n).length - 1 = 0
  · rw [hone]
    exact Nat.pos_of_ne_zero hn
  · have hnot : ¬ (decimal n).length ≤ (decimal n).length - 1 := by omega
    rwa [length_decimal_le_iff (by omega), Nat.not_lt] at hnot

theorem lt_tenPow_length (n : Nat) : n < tenPow (decimal n).length :=
  (length_decimal_le_iff (List.length_pos_iff.mpr (decimal_ne_nil n))).mp (Nat.le_refl _)

theorem length_decimal_le (n : Nat) : (decimal n).length ≤ n + 1 :=
  (length_decimal_le_iff n.succ_pos).mpr
    (Nat.lt_of_succ_lt (Nat.lt_pow_self (n := n + 1) (by decide)))

/-- The first digit of a positive number is no zero. -/
theorem head?_decimal {n : Nat} (hn : 0 < n) : (decimal n).head? ≠ some '0' := by
  unfold decimal
  induction n using Nat.strongRecOn with
  | ind n ih =>
      by_cases hlt : n < 10
      · rw [Nat.toDigits_of_lt_base hlt]
        simpa using Nat.ne_of_gt hn
      · have hhead := ih (n / 10) (by omega) (by omega)
        rw [Nat.toDigits_of_base_le (by decide) (Nat.le_of_not_lt hlt)]
        cases hdigits : Nat.toDigits 10 (n / 10) with
        | nil => exact absurd hdigits Nat.toDigits_ne_nil
        | cons first rest =>
            rw [hdigits] at hhead
            exact hhead

/-! ### Digits are the only ones of their number -/

/-- As many digits that count as much are the same ones. -/
theorem eq_of_readDecimal {a b : Text} (ha : ∀ d ∈ a, d.isDigit = true)
    (hb : ∀ d ∈ b, d.isDigit = true) (hlength : a.length = b.length)
    (h : readDecimal a = readDecimal b) : a = b := by
  induction a generalizing b with
  | nil => exact (List.length_eq_zero_iff.mp hlength.symm).symm
  | cons d a ih =>
      cases b with
      | nil => cases hlength
      | cons c b =>
          obtain ⟨hd, ha⟩ := List.forall_mem_cons.mp ha
          obtain ⟨hc, hb⟩ := List.forall_mem_cons.mp hb
          have hsame : a.length = b.length := Nat.succ.inj hlength
          have hrestA := readDecimal_lt ha
          have hrestB := readDecimal_lt hb
          rw [readDecimal_cons, readDecimal_cons c, hsame] at h
          rw [hsame] at hrestA
          have hfirst : readDecimal [d] = readDecimal [c] := by
            rcases Nat.lt_trichotomy (readDecimal [d]) (readDecimal [c]) with hlt | heq | hgt
            · have hmul := Nat.mul_le_mul_right (tenPow b.length) hlt
              rw [Nat.succ_mul] at hmul
              omega
            · exact heq
            · have hmul := Nat.mul_le_mul_right (tenPow b.length) hgt
              rw [Nat.succ_mul] at hmul
              omega
          rw [hfirst] at h
          rw [ih ha hb hsame (Nat.add_left_cancel h), readDecimal_digit_inj hd hc hfirst]

theorem tenPow_le_readDecimal {digits : Text} (hne : digits ≠ [])
    (h : ∀ d ∈ digits, d.isDigit = true) (hfirst : digits.head? ≠ some '0') :
    tenPow (digits.length - 1) ≤ readDecimal digits := by
  cases digits with
  | nil => contradiction
  | cons d rest =>
      have hd := readDecimal_digit_pos (h d List.mem_cons_self) fun hzero =>
        hfirst (congrArg some hzero)
      rw [readDecimal_cons, List.length_cons, Nat.add_sub_cancel]
      exact Nat.le_trans (Nat.le_mul_of_pos_left _ hd) (Nat.le_add_right _ _)

/-- Digits that do not begin with a zero are the decimal of their number. -/
theorem decimal_readDecimal {digits : Text} (hne : digits ≠ [])
    (h : ∀ d ∈ digits, d.isDigit = true) (hfirst : digits.head? ≠ some '0') :
    decimal (readDecimal digits) = digits := by
  have hpos : 0 < digits.length := List.length_pos_iff.mpr hne
  have hle := (length_decimal_le_iff hpos).mpr (readDecimal_lt h)
  have hge : digits.length ≤ (decimal (readDecimal digits)).length := by
    by_cases hone : digits.length = 1
    · rw [hone]
      exact List.length_pos_iff.mpr (decimal_ne_nil _)
    · have hnot := mt (length_decimal_le_iff (k := digits.length - 1) (by omega)).mp
        (Nat.not_lt.mpr (tenPow_le_readDecimal hne h hfirst))
      omega
  exact eq_of_readDecimal (fun d hd => isDigit_of_mem_decimal hd) h (Nat.le_antisymm hle hge)
    (readDecimal_decimal _)

/-! ### Cutting -/

section Cutting

variable {p : Char → Bool} {front rest : Text}

/-- A text is cut in front of the first character that a test refuses. -/
theorem takeWhile_stop (hfront : ∀ c ∈ front, p c = true) (hrest : ∀ c ∈ rest.head?, p c = false) :
    (front ++ rest).takeWhile p = front := by
  rw [List.takeWhile_append_of_pos hfront]
  cases rest with
  | nil => simp
  | cons c rest => simp [hrest c rfl]

theorem dropWhile_stop (hfront : ∀ c ∈ front, p c = true) (hrest : ∀ c ∈ rest.head?, p c = false) :
    (front ++ rest).dropWhile p = rest := by
  rw [List.dropWhile_append_of_pos hfront]
  cases rest with
  | nil => rfl
  | cons c rest => simp [hrest c rfl]

end Cutting

/-! ### Hexadecimal digits -/

/-- A number in four hexadecimal digits. -/
def fourDigits (n : Nat) : Text :=
  [(n / 0x1000).digitChar, (n / 0x100 % 0x10).digitChar, (n / 0x10 % 0x10).digitChar,
    (n % 0x10).digitChar]

/-- Zeros in front of a hexadecimal number below 2^16 make it four digits long. -/
theorem padded_hexadecimal {n : Nat} (h : n < 0x10000) :
    List.replicate (4 - (hexadecimal n).length) '0' ++ hexadecimal n = fourDigits n := by
  have hzero : Nat.digitChar 0 = '0' := rfl
  have hbase : 1 < 0x10 := by decide
  unfold hexadecimal fourDigits
  by_cases h1 : n < 0x10
  · have hdiv : n / 0x10 = 0 ∧ n / 0x100 = 0 ∧ n / 0x1000 = 0 := by omega
    rw [Nat.toDigits_of_lt_base h1, hdiv.1, hdiv.2.1, hdiv.2.2, Nat.mod_eq_of_lt h1]
    rfl
  by_cases h2 : n < 0x100
  · have hdiv : n / 0x100 = 0 ∧ n / 0x1000 = 0 ∧ n / 0x10 < 0x10 := by omega
    rw [Nat.toDigits_of_base_le hbase (by omega), Nat.toDigits_of_lt_base hdiv.2.2, hdiv.1,
      hdiv.2.1, Nat.mod_eq_of_lt hdiv.2.2]
    rfl
  by_cases h3 : n < 0x1000
  · have hdiv : n / 0x10 / 0x10 = n / 0x100 ∧ n / 0x1000 = 0 ∧ n / 0x100 < 0x10 := by omega
    rw [Nat.toDigits_of_base_le hbase (by omega), Nat.toDigits_of_base_le hbase (by omega),
      hdiv.1, Nat.toDigits_of_lt_base hdiv.2.2, hdiv.2.1, Nat.mod_eq_of_lt hdiv.2.2]
    rfl
  · have hdiv : n / 0x10 / 0x10 = n / 0x100 ∧ n / 0x100 / 0x10 = n / 0x1000 ∧
        n / 0x1000 < 0x10 := by omega
    rw [Nat.toDigits_of_base_le hbase (by omega), Nat.toDigits_of_base_le hbase (by omega),
      hdiv.1, Nat.toDigits_of_base_le hbase (by omega), hdiv.2.1,
      Nat.toDigits_of_lt_base hdiv.2.2]
    rfl

end QueryLabel.Text
