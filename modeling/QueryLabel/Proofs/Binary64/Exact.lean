import QueryLabel.Proofs.Binary64.Fewest
import QueryLabel.Proofs.Binary64.Layout

/-!
Layouts are exact.  The digits of a decimal are only cut inside them (`writeDecimal?_eq`), and the
text of a decimal spells a numeral with its value (`numeral?_writeDecimal`), wherever the point
stands.
-/

namespace QueryLabel.Layout

open Binary64 (DigitText Literal signText signed numeral? numeral?_of_literal)

variable {decimal : Decimal}

/-! ### Cutting with checks -/

/-- A text cut at a place that has to be inside it. -/
def cut? (text : Text) (n : Nat) : Option (Text × Text) :=
  if n ≤ text.length then some (text.take n, text.drop n) else none

/-- A difference that has to be a whole number. -/
def difference? (a b : Nat) : Option Nat :=
  if b ≤ a then some (a - b) else none

/-- Digits with a point, or nothing if they are cut outside of them. -/
def positionalText? (decimal : Decimal) : Option Text :=
  let point := decimal.exponent + 1
  if point ≤ 0 then
    some ('0' :: '.' :: (List.replicate point.natAbs '0' ++ decimal.digits))
  else if decimal.digits.length ≤ point.toNat then
    (difference? point.toNat decimal.digits.length).map fun zeros =>
      decimal.digits ++ List.replicate zeros '0' ++ ['.', '0']
  else
    (cut? decimal.digits point.toNat).map fun (whole, fraction) => whole ++ '.' :: fraction

/-- Digits with an exponent, or nothing if they are cut outside of them. -/
def scientificText? (width : Nat) (decimal : Decimal) : Option Text :=
  let power := Text.decimal decimal.exponent.natAbs
  let sign := if decimal.exponent < 0 then '-' else '+'
  let mantissa? :=
    if 1 < decimal.digits.length then
      (cut? decimal.digits 1).map fun (first, rest) => first ++ '.' :: rest
    else some decimal.digits
  mantissa?.map fun mantissa =>
    mantissa ++ 'e' :: sign :: (List.replicate (width - power.length) '0' ++ power)

/-- A positive decimal in a layout, or nothing if its digits are cut outside of them. -/
def writeDecimal? (layout : Layout) (decimal : Decimal) : Option Text :=
  if layout.positional decimal.exponent then positionalText? decimal
  else scientificText? layout.exponentWidth decimal

theorem positionalText?_eq (decimal : Decimal) :
    positionalText? decimal = some (positionalText decimal) := by
  obtain ⟨digits, exponent⟩ := decimal
  cases exponent with
  | negSucc e =>
      have hpoint : Int.negSucc e + 1 = -(e : Int) := by omega
      have hle : -(e : Int) ≤ 0 := by omega
      simp only [positionalText?, positionalText, hpoint, if_pos hle, Int.natAbs_neg,
        Int.natAbs_natCast]
  | ofNat e =>
      have hpoint : (Int.ofNat e + 1).toNat = e + 1 := rfl
      have hpos : ¬ Int.ofNat e + 1 ≤ 0 := by
        simp only [Int.ofNat_eq_natCast]
        omega
      simp only [positionalText?, positionalText, if_neg hpos, hpoint]
      by_cases hshort : digits.length ≤ e + 1
      · rw [if_pos hshort, difference?, if_pos hshort, List.take_of_length_le hshort,
          if_pos (List.drop_of_length_le hshort)]
        rfl
      · have hzeros : e + 1 - digits.length = 0 := by omega
        have hfraction : digits.drop (e + 1) ≠ [] := by
          rw [← List.length_pos_iff, List.length_drop]
          omega
        rw [if_neg hshort, cut?, if_pos (by omega), if_neg hfraction, hzeros, List.replicate_zero,
          List.append_nil]
        rfl

theorem scientificText?_eq (width : Nat) (decimal : Decimal) :
    scientificText? width decimal = some (scientificText width decimal) := by
  obtain ⟨digits, exponent⟩ := decimal
  unfold scientificText? scientificText
  match digits with
  | [] => rfl
  | [first] => rfl
  | first :: second :: rest => simp [cut?]

/-- Digits are only cut inside them. -/
theorem writeDecimal?_eq (layout : Layout) (decimal : Decimal) :
    writeDecimal? layout decimal = some (layout.writeDecimal decimal) := by
  unfold writeDecimal? writeDecimal
  split
  · exact positionalText?_eq decimal
  · exact scientificText?_eq layout.exponentWidth decimal

/-! ### Exponents -/

theorem not_mem_of_digitText {text : Text} (h : DigitText text) : 'e' ∉ text := by
  intro hmark
  cases h 'e' hmark

theorem not_mem_positionalText (h : decimal.Normal) : 'e' ∉ positionalText decimal := by
  have hdigits := not_mem_of_digitText h.isDigit
  have hzeros : ∀ k, 'e' ∉ List.replicate k '0' := fun k =>
    not_mem_of_digitText (digitText_zeros k)
  unfold positionalText
  split
  · simp [hzeros, hdigits]
  · next e _ =>
      have htake : 'e' ∉ decimal.digits.take (e + 1) := fun hmem =>
        hdigits (List.mem_of_mem_take hmem)
      have hdrop : 'e' ∉ decimal.digits.drop (e + 1) := fun hmem =>
        hdigits (List.mem_of_mem_drop hmem)
      simp only [List.mem_append, List.mem_cons, not_or]
      refine ⟨⟨htake, hzeros _⟩, by decide, ?_⟩
      split
      · decide
      · exact hdrop

/-- There is an exponent exactly where digits are not written positionally. -/
theorem mem_writeDecimal_iff (layout : Layout) (h : decimal.Normal) :
    'e' ∈ layout.writeDecimal decimal ↔ ¬ layout.positional decimal.exponent = true := by
  unfold writeDecimal
  split
  · next hpositional => exact iff_of_false (not_mem_positionalText h) (not_not.mpr hpositional)
  · next hscientific => exact iff_of_true (mem_scientificText _ decimal) hscientific

/-- A text with an exponent: a mantissa, the sign of the exponent, and its digits, which are filled
up to a width. -/
inductive ScientificForm (width : Nat) (e : Int) : Text → Prop
  | mk {mantissa power : Text} (hmantissa : 'e' ∉ mantissa) (hpower : DigitText power)
      (hwidth : width ≤ power.length) (hvalue : Text.readDecimal power = e.natAbs) :
      ScientificForm width e (mantissa ++ 'e' :: (if e < 0 then '-' else '+') :: power)

theorem scientificForm (h : decimal.Normal) (width : Nat) :
    ScientificForm width decimal.exponent (scientificText width decimal) := by
  have hdigits := not_mem_of_digitText h.isDigit
  unfold scientificText
  refine .mk ?_ (digitText_append (digitText_zeros _)
    (fun c hc => Text.isDigit_of_mem_decimal hc)) ?_ ?_
  · split
    · next first second rest heq =>
        rw [heq] at hdigits
        simpa using hdigits
    · exact hdigits
  · rw [List.length_append, List.length_replicate]
    omega
  · rw [readDecimal_zeros_append, Text.readDecimal_decimal]

theorem ScientificForm.append {width : Nat} {e : Int} {text front : Text}
    (h : ScientificForm width e text) (hfront : 'e' ∉ front) :
    ScientificForm width e (front ++ text) := by
  obtain ⟨hmantissa, hpower, hwidth, hvalue⟩ := h
  rw [← List.append_assoc]
  exact .mk (List.not_mem_append hfront hmantissa) hpower hwidth hvalue

/-! ### Values -/

/-- Zeros at the end of a decimal do not count. -/
theorem value_zeros (decimal : Decimal) (zeros : Nat) :
    ((Text.readDecimal decimal.digits * tenPow zeros : Nat) : ℚ) *
      powerOfTen (lastExponent decimal zeros) = decimal.value := by
  have hsplit := powerOfTen_add zeros (lastExponent decimal zeros)
  have hsum : (zeros : Int) + lastExponent decimal zeros =
      decimal.exponent - (decimal.digits.length - 1 : Nat) := by
    unfold lastExponent
    omega
  rw [hsum] at hsplit
  rw [Decimal.value_eq, hsplit, powerOfTen_natCast, Nat.cast_mul, mul_assoc]

/-- In every layout the text of a decimal is a literal that denotes it. -/
theorem literal_writeDecimal (layout : Layout) (negative : Bool) (h : decimal.Normal) :
    ∃ n e, Literal (signText negative ++ layout.writeDecimal decimal) negative n e ∧
      n * powerOfTen e = decimal.value := by
  obtain ⟨z, -, hwrites⟩ := writes_decimal layout h
  exact ⟨_, _, hwrites negative, value_zeros decimal z⟩

theorem numeral?_writeDecimal (layout : Layout) (negative : Bool) (h : decimal.Normal) :
    ∃ numeral, numeral? (signText negative ++ layout.writeDecimal decimal) = some numeral ∧
      numeral.value = signed negative decimal.value := by
  obtain ⟨n, e, hliteral, hvalue⟩ := literal_writeDecimal layout negative h
  exact ⟨_, numeral?_of_literal hliteral, congrArg (signed negative) hvalue⟩

end QueryLabel.Layout
