import QueryLabel.Binary64.Literal
import QueryLabel.Proofs.Binary64.Shortest

/-!
Reading a literal from its parts (`numeral?_of_parts`), and decimals that read back as a magnitude:
they stand for it (`standsFor_of_readsBack`), and the number that is read from a decimal that
stands for a magnitude is that magnitude (`ofDecimal_of_standsFor`).
-/

namespace QueryLabel

namespace Binary64

/-- A row of digits, perhaps an empty one. -/
def DigitText (text : Text) : Prop :=
  ∀ c ∈ text, c.isDigit = true

/-- The whole part of a literal: a lone zero, or digits that do not begin with one. -/
inductive WholeText : Text → Prop
  | zero : WholeText ['0']
  | digits {text : Text} (hne : text ≠ []) (h : DigitText text)
      (hfirst : text.head? ≠ some '0') : WholeText text

/-- The fraction of a literal with its point, or nothing, and its digits. -/
inductive FractionText : Text → Text → Prop
  | none : FractionText [] []
  | point {digits : Text} (hne : digits ≠ []) (h : DigitText digits) :
      FractionText ('.' :: digits) digits

/-- The exponent of a literal in normal form, or nothing, and its value. -/
inductive ExponentText : Text → Int → Prop
  | none : ExponentText [] 0
  | plus {digits : Text} (hne : digits ≠ []) (h : DigitText digits) :
      ExponentText ('e' :: '+' :: digits) (Text.readDecimal digits)
  | minus {digits : Text} (hne : digits ≠ []) (h : DigitText digits) :
      ExponentText ('e' :: '-' :: digits) (-(Text.readDecimal digits : Int))

/-- The sign of a literal. -/
def signText (negative : Bool) : Text :=
  if negative then ['-'] else []

/-- A literal in normal form, with its sign, its significand and its power of ten. -/
inductive Literal : Text → Bool → Nat → Int → Prop
  | mk {negative : Bool} {whole point fraction power : Text} {e : Int} (hwhole : WholeText whole)
      (hfraction : FractionText point fraction) (hpower : ExponentText power e) :
      Literal (signText negative ++ (whole ++ (point ++ power))) negative
        (Text.readDecimal (whole ++ fraction)) (e - fraction.length)

/-- A decimal numeral: a sign, its digits as one whole number, and the power of ten that the last
one counts. -/
structure Numeral where
  negative : Bool
  significand : Nat
  exponent : Int
deriving Repr, DecidableEq

/-- The numeral that a decimal literal spells, before it is rounded. -/
def numeral? (literal : Text) : Option Numeral := do
  let (negative, text) := splitSign literal
  let (whole, rest) := splitDigits text
  let (fraction, rest) :=
    match rest with
    | '.' :: rest => splitDigits rest
    | rest => ([], rest)
  if whole = [] ∧ fraction = [] then none
  else do
    let exponent ← readExponent? rest
    some ⟨negative, Text.readDecimal (whole ++ fraction), exponent - fraction.length⟩

/-- A literal is read by rounding the numeral that it spells. -/
theorem readLiteral?_eq (literal : Text) :
    readLiteral? literal =
      (numeral? literal).map fun x => ofDecimal x.negative x.significand x.exponent := by
  unfold readLiteral? numeral?
  simp only [Option.bind_eq_bind]
  generalize splitDigits (splitSign literal).2 = parts
  obtain ⟨whole, rest⟩ := parts
  have hrounded : ∀ fraction tail : Text,
      (if whole = [] ∧ fraction = [] then none
        else (readExponent? tail).bind fun exponent =>
          some (ofDecimal (splitSign literal).1 (Text.readDecimal (whole ++ fraction))
            (exponent - fraction.length))) =
        Option.map (fun x : Numeral => ofDecimal x.negative x.significand x.exponent)
          (if whole = [] ∧ fraction = [] then none
            else (readExponent? tail).bind fun exponent =>
              some ⟨(splitSign literal).1, Text.readDecimal (whole ++ fraction),
                exponent - fraction.length⟩) := by
    intro fraction tail
    split
    · rfl
    · cases readExponent? tail <;> rfl
  cases rest with
  | nil => exact hrounded [] []
  | cons c rest =>
      by_cases hpoint : c = '.'
      · subst hpoint
        exact hrounded _ _
      · simpa [hpoint] using hrounded [] (c :: rest)

theorem Literal.of_parts {text whole point fraction power : Text} {negative : Bool} {n : Nat}
    {e k : Int} (hwhole : WholeText whole) (hfraction : FractionText point fraction)
    (hpower : ExponentText power k) (htext : text = whole ++ (point ++ power))
    (hn : n = Text.readDecimal (whole ++ fraction)) (he : e = k - fraction.length) :
    Literal (signText negative ++ text) negative n e := by
  subst htext hn he
  exact .mk hwhole hfraction hpower

theorem WholeText.ne_nil {text : Text} (h : WholeText text) : text ≠ [] := by
  cases h with
  | zero => simp
  | digits hne => exact hne

theorem WholeText.digitText {text : Text} (h : WholeText text) : DigitText text := by
  cases h with
  | zero =>
      intro c hc
      rw [List.mem_singleton] at hc
      subst hc
      rfl
  | digits hne h => exact h

/-- Digits end in front of a character that is none. -/
theorem splitDigits_append {digits rest : Text} (h : DigitText digits)
    (hrest : ∀ c ∈ rest.head?, c.isDigit = false) :
    splitDigits (digits ++ rest) = (digits, rest) := by
  rw [splitDigits, Text.takeWhile_stop h hrest, Text.dropWhile_stop h hrest]

theorem splitSign_signText {negative : Bool} {text : Text} (hne : text ≠ [])
    (h : ∀ c ∈ text.head?, c.isDigit = true) :
    splitSign (signText negative ++ text) = (negative, text) := by
  cases negative with
  | true => rfl
  | false =>
      cases text with
      | nil => contradiction
      | cons c rest =>
          have hc := h c rfl
          change splitSign (c :: rest) = (false, c :: rest)
          unfold splitSign
          split
          · next heq =>
              cases heq
              contradiction
          · next heq =>
              cases heq
              contradiction
          · rfl

theorem readExponent?_of_exponentText {text : Text} {e : Int} (h : ExponentText text e) :
    readExponent? text = some e := by
  cases h with
  | none => rfl
  | plus hne hdigits =>
      have hall := List.all_eq_true.mpr hdigits
      simp [readExponent?, splitSign, hne, hall]
  | minus hne hdigits =>
      have hall := List.all_eq_true.mpr hdigits
      simp [readExponent?, splitSign, hne, hall]

/-- The numeral of a literal is found part by part, whichever way its exponent is spelled. -/
theorem numeral?_of_parts {negative : Bool} {whole point fraction power : Text} {e : Int}
    (hwhole : WholeText whole) (hfraction : FractionText point fraction)
    (hmark : ∀ c ∈ power.head?, c.isDigit = false ∧ c ≠ '.')
    (hpower : readExponent? power = some e) :
    numeral? (signText negative ++ (whole ++ (point ++ power))) =
      some ⟨negative, Text.readDecimal (whole ++ fraction), e - fraction.length⟩ := by
  have hne := hwhole.ne_nil
  have hsign : splitSign (signText negative ++ (whole ++ (point ++ power))) =
      (negative, whole ++ (point ++ power)) := by
    apply splitSign_signText
    · exact List.append_ne_nil_of_left_ne_nil hne _
    · cases whole with
      | nil => contradiction
      | cons c rest =>
          intro d hd
          cases hd
          exact hwhole.digitText c List.mem_cons_self
  have hend : ∀ c ∈ power.head?, c.isDigit = false := fun c hc => (hmark c hc).1
  cases hfraction with
  | none =>
      have hsplit := splitDigits_append hwhole.digitText hend
      cases power with
      | nil =>
          simp only [List.append_nil] at hsign hsplit ⊢
          simp [numeral?, hsign, hsplit, hne, hpower]
      | cons mark power =>
          have hpoint : mark ≠ '.' := (hmark mark rfl).2
          simp only [List.nil_append] at hsign hsplit ⊢
          simp [numeral?, hsign, hsplit, hne, hpower, hpoint]
  | @point _ _ hdigits =>
      have hrest : ∀ c ∈ ('.' :: fraction ++ power).head?, c.isDigit = false := by
        intro c hc
        cases hc
        rfl
      have hsplit := splitDigits_append hwhole.digitText hrest
      have hsplit' := splitDigits_append hdigits hend
      simp only [List.cons_append] at hsign hsplit ⊢
      simp [numeral?, hsign, hsplit, hsplit', hne, hpower]

theorem mark_of_exponentText {text : Text} {e : Int} (h : ExponentText text e) :
    ∀ c ∈ text.head?, c.isDigit = false ∧ c ≠ '.' := by
  intro c hc
  cases h with
  | none => cases hc
  | plus | minus =>
      cases hc
      decide

theorem numeral?_of_literal {text : Text} {negative : Bool} {n : Nat} {e : Int}
    (h : Literal text negative n e) : numeral? text = some ⟨negative, n, e⟩ := by
  cases h with
  | mk hwhole hfraction hpower =>
      exact numeral?_of_parts hwhole hfraction (mark_of_exponentText hpower)
        (readExponent?_of_exponentText hpower)

theorem readLiteral?_of_literal {text : Text} {negative : Bool} {n : Nat} {e : Int}
    (h : Literal text negative n e) : readLiteral? text = some (ofDecimal negative n e) := by
  rw [readLiteral?_eq, numeral?_of_literal h]
  rfl

/-! ### Decimals that read back -/

open Magnitude (offset finePower)

/-- What reads back as a magnitude is near it. -/
theorem readsBack_bounds {size : Magnitude} (hsize : size.units ≠ 0) {f : Nat}
    (h : size.readsBack f = true) : 2 * tenPow offset ≤ f ∧
      f ≤ 6 * twoPow 2098 * tenPow offset := by
  have hbelow := size.below_le_units hsize
  have hstep := size.step_le_units hsize
  have hunits : size.units < twoPow 2098 := (log2_lt_iff hsize 2098).mp size.bounded
  have hlow : 2 * tenPow offset ≤ (4 * size.units - size.below) * tenPow offset :=
    Nat.mul_le_mul_right _ (by omega)
  have hhigh : (4 * size.units + 2 * size.step) * tenPow offset ≤
      6 * twoPow 2098 * tenPow offset :=
    Nat.mul_le_mul_right _ (by omega)
  unfold Magnitude.readsBack at h
  simp only at h
  split at h
  · have hbounds := of_decide_eq_true h
    exact ⟨Nat.le_trans hlow hbounds.1, Nat.le_trans hbounds.2 hhigh⟩
  · have hbounds := of_decide_eq_true h
    exact ⟨Nat.le_trans hlow (Nat.le_of_lt hbounds.1),
      Nat.le_trans (Nat.le_of_lt hbounds.2) hhigh⟩

/-- Decimals far beyond the largest magnitude or below the least one do not read back. -/
theorem point_bounds {size : Magnitude} (hsize : size.units ≠ 0) {n q : Nat} (hn : n ≠ 0)
    (h : size.readsBack (n * finePower q) = true) :
    70 ≤ (Text.decimal n).length + q ∧ (Text.decimal n).length + q ≤ 709 := by
  obtain ⟨hlow, hhigh⟩ := readsBack_bounds hsize h
  have hpos : 0 < (Text.decimal n).length := List.length_pos_iff.mpr (Text.decimal_ne_nil n)
  have hfine : n * finePower q = twoPow 1076 * (n * tenPow q) := by
    unfold finePower
    rw [Nat.mul_left_comm]
  rw [hfine] at hlow hhigh
  constructor
  · -- A decimal with so few digits is below the least magnitude.
    apply Nat.le_of_not_lt
    intro hfew
    have hleast : twoPow 1076 * tenPow 69 < 2 * tenPow offset := by decide +kernel
    have hn' : n * tenPow q < tenPow 69 := by
      apply Nat.lt_of_lt_of_le
        (Nat.mul_lt_mul_of_pos_right (Text.lt_tenPow_length n) (tenPow_pos q))
      rw [← tenPow_add]
      exact Text.tenPow_le_tenPow (by omega)
    have hmul := Nat.mul_le_mul_left (twoPow 1076) (Nat.le_of_lt hn')
    exact absurd (Nat.le_trans hlow hmul) (Nat.not_le_of_lt hleast)
  · -- A decimal with so many digits is beyond the largest magnitude.
    apply Nat.le_of_not_lt
    intro hmany
    have hlargest : 6 * twoPow 2098 * tenPow offset < twoPow 1076 * tenPow 709 := by
      decide +kernel
    have hn' : tenPow 709 ≤ n * tenPow q := by
      apply Nat.le_trans _ (Nat.mul_le_mul_right (tenPow q) (Text.tenPow_le_of_decimal hn))
      rw [← tenPow_add]
      exact Text.tenPow_le_tenPow (by omega)
    have hmul := Nat.mul_le_mul_left (twoPow 1076) hn'
    exact absurd (Nat.le_trans hmul hhigh) (Nat.not_le_of_lt hlargest)

/-- A whole decimal, counted in small units. -/
theorem fine_of_whole (n e t : Nat) :
    n * (t * tenPow (e + offset)) * 1 = n * tenPow e * t * tenPow offset := by
  rw [Nat.mul_one, tenPow_add, Nat.mul_left_comm t, Nat.mul_assoc (n * tenPow e), Nat.mul_assoc n]

/-- A decimal with a fraction, counted in small units. -/
theorem fine_of_fraction (n t : Nat) {q e : Nat} (h : offset = q + (e + 1)) :
    n * (t * tenPow q) * tenPow (e + 1) = n * t * tenPow offset := by
  rw [h, tenPow_add q, Nat.mul_assoc n, Nat.mul_assoc n, Nat.mul_assoc t]

end Binary64

namespace Magnitude

/-- The magnitude nearest to a decimal. -/
def nearestDecimal? (n : Nat) : Int → Option Magnitude
  | .ofNat e => nearest? (n * tenPow e) 1
  | .negSucc e => nearest? n (tenPow (e + 1))

/-- The decimal `n * 10^e` stands for a magnitude: it is nearest to the decimal, and the first digit
counts no power of ten that is out of range. -/
structure StandsFor (n : Nat) (e : Int) (size : Magnitude) : Prop where
  ne_zero : n ≠ 0
  nearest : nearestDecimal? n e = some size
  low : -330 ≤ (Text.decimal n).length + e
  high : (Text.decimal n).length + e ≤ 309

end Magnitude

namespace Binary64

open Magnitude (offset finePower StandsFor)

variable {size : Magnitude} {n q : Nat} {e : Int}

/-- A decimal that reads back as a magnitude stands for it. -/
theorem standsFor_of_readsBack (hsize : size.units ≠ 0)
    (h : size.readsBack (n * finePower q) = true) (he : e = (q : Int) - offset) :
    StandsFor n e size := by
  have hn : n ≠ 0 := Magnitude.ne_zero_of_readsBack hsize h
  obtain ⟨hlow, hhigh⟩ := point_bounds hsize hn h
  have hoffset : offset = 400 := rfl
  refine ⟨hn, ?_, by omega, by omega⟩
  unfold finePower at h
  have hnearest : ∀ {num den : Nat}, 0 < den →
      n * (twoPow 1076 * tenPow q) * den = num * twoPow 1076 * tenPow offset →
      Magnitude.nearest? num den = some size :=
    fun hden hfine => Magnitude.nearest?_of_readsBack hsize hden hfine h
  cases e with
  | ofNat e =>
      have hq : q = e + offset := by
        simp only [Int.ofNat_eq_natCast] at he
        omega
      rw [hq] at hnearest
      exact hnearest Nat.one_pos (fine_of_whole n e (twoPow 1076))
  | negSucc e =>
      have hq : offset = q + (e + 1) := by omega
      exact hnearest (tenPow_pos _) (fine_of_fraction n (twoPow 1076) hq)

/-- The number that is read from a decimal is the magnitude that it stands for. -/
theorem ofDecimal_of_standsFor (negative : Bool) (h : StandsFor n e size) :
    ofDecimal negative n e = .finite negative size := by
  obtain ⟨hn, hnearest, hlow, hhigh⟩ := h
  unfold ofDecimal
  simp only
  rw [if_neg hn, if_neg (by omega), if_neg (by omega)]
  cases e with
  | ofNat e =>
      change Magnitude.nearest? (n * tenPow e) 1 = some size at hnearest
      simp only [nearest, hnearest, Option.elim_some]
  | negSucc e =>
      change Magnitude.nearest? n (tenPow (e + 1)) = some size at hnearest
      simp only [nearest, hnearest, Option.elim_some]

theorem finite_of_nearest {negative negative' : Bool} {num den : Nat}
    (h : nearest negative num den = .finite negative' size) :
    negative = negative' ∧ Magnitude.nearest? num den = some size := by
  unfold nearest at h
  cases hnearest : Magnitude.nearest? num den with
  | none =>
      rw [hnearest] at h
      cases h
  | some other =>
      rw [hnearest] at h
      cases h
      exact ⟨rfl, rfl⟩

/-- A number other than zero that is read from a decimal is the one nearest to it. -/
theorem nearestDecimal?_of_ofDecimal {negative negative' : Bool} (hsize : size.units ≠ 0)
    (h : ofDecimal negative n e = .finite negative' size) :
    negative = negative' ∧ n ≠ 0 ∧ Magnitude.nearestDecimal? n e = some size := by
  have hzero : ∀ sign, Binary64.zero sign ≠ .finite negative' size := by
    rintro sign hsign
    cases hsign
    exact hsize rfl
  unfold ofDecimal at h
  simp only at h
  split at h
  · exact absurd h (hzero negative)
  · next hn =>
      split at h
      · cases h
      · split at h
        · exact absurd h (hzero negative)
        · cases e with
          | ofNat e =>
              obtain ⟨hsign, hnearest⟩ := finite_of_nearest h
              exact ⟨hsign, hn, hnearest⟩
          | negSucc e =>
              obtain ⟨hsign, hnearest⟩ := finite_of_nearest h
              exact ⟨hsign, hn, hnearest⟩

end Binary64

end QueryLabel
