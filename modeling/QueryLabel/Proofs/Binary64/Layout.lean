import QueryLabel.Binary64.Layout
import QueryLabel.Proofs.Binary64.Literal

/-!
Numbers as they are written.  In every layout the text of a finite number is a literal in normal
form (`exists_literal_write`), and it is read back as the number (`readLiteral?_write`).  Layouts
that fill up few decimals with zeros write short literals (`literal_write_short`).
-/

namespace QueryLabel.Layout

open Binary64 (DigitText WholeText FractionText ExponentText Literal signText)

/-- The exponent of the last digit that is written for a decimal with zeros at its end. -/
def lastExponent (decimal : Decimal) (zeros : Nat) : Int :=
  decimal.exponent - (decimal.digits.length - 1 : Nat) - zeros

/-- The text is a literal of a decimal with zeros at its end. -/
def Writes (decimal : Decimal) (zeros : Nat) (text : Text) : Prop :=
  ∀ negative, Literal (signText negative ++ text) negative
    (Text.readDecimal decimal.digits * tenPow zeros) (lastExponent decimal zeros)

theorem digitText_zeros (k : Nat) : DigitText (List.replicate k '0') := by
  intro c hc
  rw [List.eq_of_mem_replicate hc]
  rfl

theorem digitText_append {a b : Text} (ha : DigitText a) (hb : DigitText b) :
    DigitText (a ++ b) := by
  intro c hc
  rcases List.mem_append.mp hc with hc | hc
  · exact ha c hc
  · exact hb c hc

theorem readDecimal_zeros_append (k : Nat) (digits : Text) :
    Text.readDecimal (List.replicate k '0' ++ digits) = Text.readDecimal digits := by
  rw [Text.readDecimal_append, Text.readDecimal_zeros, Nat.zero_mul, Nat.zero_add]

theorem readDecimal_append_zeros (k : Nat) (digits : Text) :
    Text.readDecimal (digits ++ List.replicate k '0') = Text.readDecimal digits * tenPow k := by
  rw [Text.readDecimal_append, Text.readDecimal_zeros, List.length_replicate, Nat.add_zero]

variable {decimal : Decimal}

theorem tenPow_zero : tenPow 0 = 1 := rfl

/-- Below one, zeros stand behind the point. -/
theorem writes_fraction (h : decimal.Normal) {e : Nat} (he : decimal.exponent = .negSucc e) :
    Writes decimal 0 ('0' :: '.' :: (List.replicate e '0' ++ decimal.digits)) := by
  intro negative
  have hpos : 0 < decimal.digits.length := List.length_pos_iff.mpr h.ne_nil
  have hfraction := FractionText.point
    (List.append_ne_nil_of_right_ne_nil (List.replicate e '0') h.ne_nil)
    (digitText_append (digitText_zeros e) h.isDigit)
  refine .of_parts .zero hfraction .none (by simp) ?_ ?_
  · have hvalue := readDecimal_zeros_append (e + 1) decimal.digits
    rw [List.replicate_succ] at hvalue
    rw [tenPow_zero, Nat.mul_one]
    exact hvalue.symm
  · rw [lastExponent, he, List.length_append, List.length_replicate]
    omega

/-- The digits in front of the point, if there are more of them than the whole part needs. -/
theorem wholeText_take (h : decimal.Normal) (e : Nat) :
    WholeText (decimal.digits.take (e + 1)) := by
  cases hdigits : decimal.digits with
  | nil => exact absurd hdigits h.ne_nil
  | cons first rest =>
      have hfirst := h.first
      rw [hdigits] at hfirst
      refine .digits (by simp) ?_ hfirst
      intro c hc
      apply h.isDigit c
      rw [hdigits]
      exact List.mem_of_mem_take hc

/-- A decimal with digits on both sides of the point. -/
theorem writes_both (h : decimal.Normal) {e : Nat} (he : decimal.exponent = .ofNat e)
    (hlong : e + 1 < decimal.digits.length) :
    Writes decimal 0 (decimal.digits.take (e + 1) ++ '.' :: decimal.digits.drop (e + 1)) := by
  intro negative
  have hne : decimal.digits.drop (e + 1) ≠ [] := by
    rw [← List.length_pos_iff, List.length_drop]
    omega
  have hdigits : DigitText (decimal.digits.drop (e + 1)) := by
    intro c hc
    exact h.isDigit c (List.mem_of_mem_drop hc)
  refine .of_parts (wholeText_take h e) (.point hne hdigits) .none (by simp) ?_ ?_
  · rw [List.take_append_drop, tenPow_zero, Nat.mul_one]
  · rw [lastExponent, he, List.length_drop]
    simp only [Int.ofNat_eq_natCast]
    omega

/-- A whole decimal gets zeros up to the point, and one behind it. -/
theorem writes_whole (h : decimal.Normal) {e : Nat} (he : decimal.exponent = .ofNat e)
    (hshort : decimal.digits.length ≤ e + 1) :
    Writes decimal (e + 1 - decimal.digits.length + 1)
      (decimal.digits ++ List.replicate (e + 1 - decimal.digits.length) '0' ++ ['.', '0']) := by
  intro negative
  have hpos : 0 < decimal.digits.length := List.length_pos_iff.mpr h.ne_nil
  have hone : DigitText ['0'] := digitText_zeros 1
  have hwhole : WholeText (decimal.digits ++
      List.replicate (e + 1 - decimal.digits.length) '0') := by
    refine .digits (List.append_ne_nil_of_left_ne_nil h.ne_nil _)
      (digitText_append h.isDigit (digitText_zeros _)) ?_
    rw [List.head?_append]
    cases hdigits : decimal.digits with
    | nil => exact absurd hdigits h.ne_nil
    | cons first rest =>
        have hfirst := h.first
        rwa [hdigits] at hfirst
  refine .of_parts hwhole (.point (by simp) hone) .none (by simp) ?_ ?_
  · rw [List.append_assoc, ← List.replicate_one, List.replicate_append_replicate,
      readDecimal_append_zeros]
  · rw [lastExponent, he]
    simp only [Int.ofNat_eq_natCast, List.length_singleton]
    omega

/-- If there are zeros at the end, the last one is behind the point. -/
theorem writes_positional (h : decimal.Normal) :
    ∃ z, (z = 0 ∨ lastExponent decimal z = -1) ∧ Writes decimal z (positionalText decimal) := by
  have hpos : 0 < decimal.digits.length := List.length_pos_iff.mpr h.ne_nil
  unfold positionalText
  split
  · next e he => exact ⟨0, Or.inl rfl, writes_fraction h he⟩
  · next e he =>
      simp only
      by_cases hlong : e + 1 < decimal.digits.length
      · have hne : decimal.digits.drop (e + 1) ≠ [] := by
          rw [← List.length_pos_iff, List.length_drop]
          omega
        have hzeros : e + 1 - decimal.digits.length = 0 := by omega
        refine ⟨0, Or.inl rfl, ?_⟩
        rw [if_neg hne, hzeros]
        simpa using writes_both h he hlong
      · have hnil : decimal.digits.drop (e + 1) = [] :=
          List.drop_of_length_le (Nat.le_of_not_lt hlong)
        refine ⟨e + 1 - decimal.digits.length + 1, Or.inr ?_, ?_⟩
        · rw [lastExponent, he]
          simp only [Int.ofNat_eq_natCast]
          omega
        · rw [if_pos hnil, List.take_of_length_le (Nat.le_of_not_lt hlong)]
          simpa using writes_whole h he (Nat.le_of_not_lt hlong)

/-- An exponent as it is written, with zeros in front of its digits. -/
theorem exponentText_write (width : Nat) (e : Int) :
    ExponentText ('e' :: (if e < 0 then '-' else '+') ::
      (List.replicate (width - (Text.decimal e.natAbs).length) '0' ++
        Text.decimal e.natAbs)) e := by
  have hne : List.replicate (width - (Text.decimal e.natAbs).length) '0' ++
      Text.decimal e.natAbs ≠ [] :=
    List.append_ne_nil_of_right_ne_nil _ (Text.decimal_ne_nil _)
  have hdigits : DigitText (List.replicate (width - (Text.decimal e.natAbs).length) '0' ++
      Text.decimal e.natAbs) :=
    digitText_append (digitText_zeros _) fun c hc => Text.isDigit_of_mem_decimal hc
  have hvalue : Text.readDecimal (List.replicate (width - (Text.decimal e.natAbs).length) '0' ++
      Text.decimal e.natAbs) = e.natAbs := by
    rw [readDecimal_zeros_append, Text.readDecimal_decimal]
  by_cases hneg : e < 0
  · have hminus := ExponentText.minus hne hdigits
    rw [hvalue] at hminus
    have he : -(e.natAbs : Int) = e := by omega
    rw [he] at hminus
    rwa [if_pos hneg]
  · have hplus := ExponentText.plus hne hdigits
    rw [hvalue] at hplus
    have he : (e.natAbs : Int) = e := by omega
    rw [he] at hplus
    rwa [if_neg hneg]

theorem wholeText_first (h : decimal.Normal) {first : Char} {rest : Text}
    (hdigits : decimal.digits = first :: rest) : WholeText [first] := by
  have hwhole := wholeText_take h 0
  rwa [hdigits] at hwhole

theorem writes_scientific (h : decimal.Normal) (width : Nat) :
    Writes decimal 0 (scientificText width decimal) := by
  intro negative
  have hpower := exponentText_write width decimal.exponent
  unfold scientificText
  simp only
  split
  · next first second rest hdigits =>
      have hfraction : DigitText (second :: rest) := by
        intro c hc
        apply h.isDigit c
        rw [hdigits]
        exact List.mem_cons_of_mem first hc
      refine .of_parts (wholeText_first h hdigits) (.point (by simp) hfraction) hpower (by simp)
        ?_ ?_
      · rw [hdigits, tenPow_zero, Nat.mul_one]
        rfl
      · rw [lastExponent, hdigits]
        simp
  · next hfew =>
      cases hdigits : decimal.digits with
      | nil => exact absurd hdigits h.ne_nil
      | cons first rest =>
          cases rest with
          | nil =>
              refine .of_parts (wholeText_first h hdigits) .none hpower (by simp) ?_ ?_
              · rw [tenPow_zero, Nat.mul_one]
                rfl
              · rw [lastExponent, hdigits]
                simp
          | cons second rest => exact absurd hdigits (hfew first second rest)

/-- A decimal is written with its digits in every layout; zeros at the end are written in front of
a point and once behind it. -/
theorem writes_decimal (layout : Layout) (h : decimal.Normal) :
    ∃ z, (z = 0 ∨ layout.positional decimal.exponent = true ∧ lastExponent decimal z = -1) ∧
      Writes decimal z (layout.writeDecimal decimal) := by
  unfold writeDecimal
  split
  · next hpositional =>
      obtain ⟨z, hz, hwrites⟩ := writes_positional h
      exact ⟨z, hz.imp_right fun hlast => ⟨hpositional, hlast⟩, hwrites⟩
  · exact ⟨0, Or.inl rfl, writes_scientific h layout.exponentWidth⟩

open Magnitude (offset finePower StandsFor)

/-- A decimal that reads back still stands for its magnitude with zeros at its end. -/
theorem standsFor_of_readAs {size : Magnitude} (hsize : size.units ≠ 0)
    (hread : size.ReadAs decimal) {z : Nat} (hz : z = 0 ∨ lastExponent decimal z = -1) :
    StandsFor (Text.readDecimal decimal.digits * tenPow z) (lastExponent decimal z) size := by
  obtain ⟨q, hexponent, hreads⟩ := hread
  have hoffset : offset = 400 := rfl
  unfold lastExponent at *
  have hzq : z ≤ q := by omega
  apply Binary64.standsFor_of_readsBack hsize (q := q - z)
  · rw [Nat.mul_assoc, Magnitude.tenPow_mul_finePower, Nat.sub_add_cancel hzq]
    exact hreads
  · omega

theorem write_of_ne_zero (layout : Layout) (negative : Bool) {size : Magnitude}
    (hsize : size.units ≠ 0) : layout.write (.finite negative size) =
      signText negative ++ layout.writeDecimal (size.shortest layout.tie) :=
  congrArg (signText negative ++ ·) (if_neg hsize)

/-- The text of a number other than zero is a literal of its shortest decimal, which stands for
it. -/
theorem literal_shortest (layout : Layout) (negative : Bool) {size : Magnitude}
    (hsize : size.units ≠ 0) :
    let decimal := size.shortest layout.tie
    ∃ z, (z = 0 ∨ layout.positional decimal.exponent = true ∧ lastExponent decimal z = -1) ∧
      Literal (layout.write (.finite negative size)) negative
        (Text.readDecimal decimal.digits * tenPow z) (lastExponent decimal z) ∧
      StandsFor (Text.readDecimal decimal.digits * tenPow z) (lastExponent decimal z) size := by
  intro decimal
  obtain ⟨hnormal, hread⟩ := Magnitude.shortest_readsBack layout.tie hsize
  obtain ⟨z, hz, hwrites⟩ := writes_decimal layout hnormal
  refine ⟨z, hz, ?_, standsFor_of_readAs hsize hread (hz.imp_right And.right)⟩
  rw [write_of_ne_zero layout negative hsize]
  exact hwrites negative

/-- The text of zero is a literal of it. -/
theorem literal_zero (layout : Layout) (negative : Bool) :
    Literal (layout.write (.finite negative .zero)) negative 0 (-1) := by
  have hone : DigitText ['0'] := digitText_zeros 1
  exact .of_parts .zero (.point (by simp) hone) .none rfl rfl rfl

/-- The text of a finite number is a literal of it. -/
theorem literal_write (layout : Layout) (negative : Bool) (size : Magnitude) :
    ∃ n e, Literal (layout.write (.finite negative size)) negative n e ∧
      Binary64.ofDecimal negative n e = .finite negative size := by
  by_cases hzero : size.units = 0
  · have hsize : size = Magnitude.zero := Magnitude.ext hzero
    subst hsize
    exact ⟨0, -1, literal_zero layout negative, rfl⟩
  · obtain ⟨z, -, hliteral, hstands⟩ := literal_shortest layout negative hzero
    exact ⟨_, _, hliteral, Binary64.ofDecimal_of_standsFor negative hstands⟩

/-- A finite number is written as a literal in normal form. -/
theorem exists_literal_write (layout : Layout) {x : Binary64} (h : x.isFinite = true) :
    ∃ negative n e, Literal (layout.write x) negative n e := by
  cases x with
  | nan | infinite => contradiction
  | finite negative size =>
      obtain ⟨n, e, hliteral, -⟩ := literal_write layout negative size
      exact ⟨negative, n, e, hliteral⟩

/-- A finite number that is written is read back. -/
theorem readLiteral?_write (layout : Layout) {x : Binary64} (h : x.isFinite = true) :
    Binary64.readLiteral? (layout.write x) = some x := by
  cases x with
  | nan | infinite => contradiction
  | finite negative size =>
      obtain ⟨n, e, hliteral, hvalue⟩ := literal_write layout negative size
      rw [Binary64.readLiteral?_of_literal hliteral, hvalue]

/-! ### Length -/

/-- A layout that fills up whole decimals of at most sixteen digits, and widens exponents to two
digits at most. -/
structure Short (layout : Layout) : Prop where
  positional : ∀ e, layout.positional e = true → e < 16
  exponentWidth : layout.exponentWidth ≤ 2

theorem length_positionalText (decimal : Decimal) :
    (positionalText decimal).length ≤ decimal.digits.length + decimal.exponent.natAbs + 3 := by
  unfold positionalText
  split
  · next e he =>
      rw [he]
      simp only [List.length_cons, List.length_append, List.length_replicate, Int.natAbs_negSucc]
      omega
  · next e he =>
      have hfraction : (if decimal.digits.drop (e + 1) = [] then ['0']
          else decimal.digits.drop (e + 1)).length ≤ decimal.digits.length - (e + 1) + 1 := by
        split
        · exact Nat.le_add_left _ _
        · rw [List.length_drop]
          exact Nat.le_succ _
      rw [he]
      simp only [List.length_cons, List.length_append, List.length_replicate, List.length_take,
        Int.ofNat_eq_natCast, Int.natAbs_natCast]
      omega

theorem length_scientificText (width : Nat) (decimal : Decimal) :
    (scientificText width decimal).length ≤
      decimal.digits.length + decimal.exponent.natAbs + width + 4 := by
  have hpower := Text.length_decimal_le decimal.exponent.natAbs
  unfold scientificText
  simp only [List.length_cons, List.length_append, List.length_replicate]
  split
  · next hdigits =>
      rw [hdigits]
      simp only [List.length_cons]
      omega
  · omega

theorem length_writeDecimal (layout : Layout) (decimal : Decimal) :
    (layout.writeDecimal decimal).length ≤
      decimal.digits.length + decimal.exponent.natAbs + layout.exponentWidth + 4 := by
  have hpositional := length_positionalText decimal
  unfold writeDecimal
  split
  · omega
  · exact length_scientificText layout.exponentWidth decimal

/-- A short layout writes at most seventeen digits that count, and few characters. -/
theorem literal_write_short {layout : Layout} (hlayout : layout.Short) (negative : Bool)
    {size : Magnitude} (hsize : size.units ≠ 0) :
    ∃ n e, Literal (layout.write (.finite negative size)) negative n e ∧ StandsFor n e size ∧
      n < tenPow 17 ∧ (layout.write (.finite negative size)).length ≤ 400 := by
  obtain ⟨hnormal, -⟩ := Magnitude.shortest_readsBack layout.tie hsize
  obtain ⟨z, hz, hliteral, hstands⟩ := literal_shortest layout negative hsize
  have hdigits := Magnitude.length_shortest_le layout.tie hsize
  have hlength := length_writeDecimal layout (size.shortest layout.tie)
  have hwidth := hlayout.exponentWidth
  have htext : (layout.write (.finite negative size)).length ≤
      (layout.writeDecimal (size.shortest layout.tie)).length + 1 := by
    have hsign : (signText negative).length ≤ 1 := by cases negative <;> decide
    rw [write_of_ne_zero layout negative hsize, List.length_append]
    omega
  generalize size.shortest layout.tie = decimal at *
  have hpos : 0 < decimal.digits.length := List.length_pos_iff.mpr hnormal.ne_nil
  have hmany : decimal.digits.length + z ≤ 17 := by
    rcases hz with rfl | ⟨hpositional, hlast⟩
    · exact hdigits
    · have hexponent := hlayout.positional _ hpositional
      unfold lastExponent at hlast
      omega
  have hn : Text.readDecimal decimal.digits * tenPow z < tenPow 17 := by
    have hmul := Nat.mul_lt_mul_of_pos_right (Text.readDecimal_lt hnormal.isDigit) (tenPow_pos z)
    rw [← tenPow_add] at hmul
    exact Nat.lt_of_lt_of_le hmul (Text.tenPow_le_tenPow hmany)
  refine ⟨_, _, hliteral, hstands, hn, ?_⟩
  have hpoint : (Text.decimal (Text.readDecimal decimal.digits * tenPow z)).length ≤ 17 :=
    (Text.length_decimal_le_iff (by decide)).mpr hn
  have hlow := hstands.low
  have hhigh := hstands.high
  unfold lastExponent at hlow hhigh
  omega

/-! ### Marks -/

theorem mem_positionalText (decimal : Decimal) : '.' ∈ positionalText decimal := by
  unfold positionalText
  split <;> simp

theorem mem_scientificText (width : Nat) (decimal : Decimal) :
    'e' ∈ scientificText width decimal := by
  simp [scientificText]

theorem mark_mem_writeDecimal (layout : Layout) (decimal : Decimal) :
    '.' ∈ layout.writeDecimal decimal ∨ 'e' ∈ layout.writeDecimal decimal := by
  unfold writeDecimal
  split
  · exact Or.inl (mem_positionalText decimal)
  · exact Or.inr (mem_scientificText _ decimal)

/-- The text of a finite number has a point or an exponent. -/
theorem mark_mem_write (layout : Layout) {x : Binary64} (h : x.isFinite = true) :
    '.' ∈ layout.write x ∨ 'e' ∈ layout.write x := by
  cases x with
  | nan | infinite => contradiction
  | finite negative size =>
      simp only [write, List.mem_append]
      by_cases hzero : size.units = 0
      · rw [if_pos hzero]
        exact Or.inl (Or.inr (by simp))
      · rw [if_neg hzero]
        rcases mark_mem_writeDecimal layout (size.shortest layout.tie) with hpoint | hmark
        · exact Or.inl (Or.inr hpoint)
        · exact Or.inr (Or.inr hmark)

end QueryLabel.Layout
