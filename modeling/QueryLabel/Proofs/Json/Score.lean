import QueryLabel.Json.Score
import QueryLabel.Proofs.Binary64.Layout
import QueryLabel.Proofs.Binary64.Scaling
import QueryLabel.Style

/-!
Scores as they are read.  A literal of at most 64 bits is read by scaling
(`scoreOfLiteral_of_literal`).  So a finite number that a style writes is read as one with bits at
most two away, and as itself if its literal is simple (`exists_scoreOfLiteral`).
-/

namespace QueryLabel

namespace Json

open Binary64 (DigitText WholeText FractionText ExponentText Literal signText ofScaled?)
open Magnitude (StandsFor rankLimit)

/-! ### Gathering digits -/

section Gathering

variable {value : Nat} {digits : Text}

/-- A digit more moves the ones in front of it by one place. -/
theorem gathered_cons (value : Nat) (d : Char) (digits : Text) :
    value * tenPow (d :: digits).length + Text.readDecimal (d :: digits) =
      (value * 10 + Text.readDecimal [d]) * tenPow digits.length + Text.readDecimal digits := by
  rw [Text.readDecimal_cons, List.length_cons, Nat.add_comm digits.length, tenPow_add,
    ← Nat.mul_assoc, ← Nat.add_assoc, ← Nat.add_mul]
  rfl

theorem le_gathered (value : Nat) (digits : Text) :
    value ≤ value * tenPow digits.length + Text.readDecimal digits :=
  Nat.le_trans (Nat.le_mul_of_pos_right value (tenPow_pos _)) (Nat.le_add_right _ _)

/-- Digits that fit are all gathered. -/
theorem gather_eq
    (h : value * tenPow digits.length + Text.readDecimal digits < significandLimit) :
    gather value digits = ⟨value * tenPow digits.length + Text.readDecimal digits, 0⟩ := by
  induction digits generalizing value with
  | nil => exact congrArg (Significand.mk · 0) (Nat.mul_one value).symm
  | cons d digits ih =>
      rw [gathered_cons] at h ⊢
      have hfits := Nat.lt_of_le_of_lt (le_gathered (value * 10 + Text.readDecimal [d]) digits) h
      rw [gather, if_pos hfits]
      exact ih h

theorem gatherExponent_eq
    (h : value * tenPow digits.length + Text.readDecimal digits < exponentLimit) :
    gatherExponent value digits =
      .ok (value * tenPow digits.length + Text.readDecimal digits) := by
  induction digits generalizing value with
  | nil => exact congrArg Except.ok (Nat.mul_one value).symm
  | cons d digits ih =>
      rw [gathered_cons] at h ⊢
      have hfits := Nat.lt_of_le_of_lt (le_gathered (value * 10 + Text.readDecimal [d]) digits) h
      rw [gatherExponent, if_pos hfits]
      exact ih h

end Gathering

/-! ### The parts of a literal -/

section Parts

variable {whole point fraction power : Text} {e : Int}

theorem char_ne_of_isDigit {c d : Char} (hc : c.isDigit = true) (hd : d.isDigit = false) :
    c ≠ d := by
  rintro rfl
  rw [hc] at hd
  cases hd

theorem mark_not_mem_mantissa (hwhole : WholeText whole)
    (hfraction : FractionText point fraction) : ∀ c ∈ whole ++ point, decide (c ≠ 'e') = true := by
  intro c hc
  apply decide_eq_true
  rcases List.mem_append.mp hc with hc | hc
  · exact char_ne_of_isDigit (hwhole.digitText c hc) rfl
  · cases hfraction with
    | none => cases hc
    | point _ hfraction =>
        rcases List.mem_cons.mp hc with rfl | hc
        · decide
        · exact char_ne_of_isDigit (hfraction c hc) rfl

theorem head?_exponentText (hpower : ExponentText power e) :
    ∀ c ∈ power.head?, decide (c ≠ 'e') = false := by
  intro c hc
  cases hpower with
  | none => cases hc
  | plus | minus =>
      cases hc
      rfl

theorem head?_fractionText (hfraction : FractionText point fraction) :
    ∀ c ∈ point.head?, decide (c ≠ '.') = false := by
  intro c hc
  cases hfraction with
  | none => cases hc
  | point =>
      cases hc
      rfl

theorem head?_wholeText (hwhole : WholeText whole) (rest : Text) :
    (whole ++ rest).head? ≠ some '-' := by
  cases whole with
  | nil => exact absurd rfl hwhole.ne_nil
  | cons c whole =>
      have hc := char_ne_of_isDigit (hwhole.digitText c List.mem_cons_self) (d := '-') rfl
      simpa using hc

/-- A sign in front of a literal without one does not change its other parts. -/
theorem ofLiteral_minus {text : Text} (h : text.head? ≠ some '-') :
    LiteralParts.ofLiteral ('-' :: text) =
      { LiteralParts.ofLiteral text with negative := true } := by
  unfold LiteralParts.ofLiteral
  simp [h]

/-- A literal without a sign is cut at the exponent, and then at the point. -/
theorem ofLiteral_unsigned (hwhole : WholeText whole) (hfraction : FractionText point fraction)
    (hpower : ExponentText power e) :
    LiteralParts.ofLiteral (whole ++ (point ++ power)) =
      ⟨false, whole, fraction, (power.drop 1).head? = some '-', power.drop 2⟩ := by
  have hmantissa := mark_not_mem_mantissa hwhole hfraction
  have hmark := head?_exponentText hpower
  have hpoint := head?_fractionText hfraction
  have hdigits : ∀ c ∈ whole, decide (c ≠ '.') = true :=
    fun c hc => decide_eq_true (char_ne_of_isDigit (hwhole.digitText c hc) rfl)
  have hdrop : point.drop 1 = fraction := by
    cases hfraction <;> rfl
  unfold LiteralParts.ofLiteral
  simp only [head?_wholeText hwhole, decide_false, if_false]
  rw [← List.append_assoc, Text.takeWhile_stop hmantissa hmark,
    Text.dropWhile_stop hmantissa hmark, Text.takeWhile_stop hdigits hpoint,
    Text.dropWhile_stop hdigits hpoint, hdrop, List.drop_drop]

theorem ofLiteral_of_parts (negative : Bool) (hwhole : WholeText whole)
    (hfraction : FractionText point fraction) (hpower : ExponentText power e) :
    LiteralParts.ofLiteral (signText negative ++ (whole ++ (point ++ power))) =
      ⟨negative, whole, fraction, (power.drop 1).head? = some '-', power.drop 2⟩ := by
  have hunsigned := ofLiteral_unsigned hwhole hfraction hpower
  cases negative with
  | false => exact hunsigned
  | true =>
      exact (ofLiteral_minus (head?_wholeText hwhole _)).trans
        (congrArg ({ · with negative := true }) hunsigned)

/-- An exponent that fits is gathered and added with its sign. -/
theorem gatherExponent_of_exponentText (h : ExponentText power e)
    (he : e.natAbs < exponentLimit) :
    ∃ m : Nat, gatherExponent 0 (power.drop 2) = .ok m ∧ ∀ start : Int,
      (if decide ((power.drop 1).head? = some '-') = true then start - m else start + m) =
        start + e := by
  have hgather : ∀ {digits : Text}, Text.readDecimal digits < exponentLimit →
      gatherExponent 0 digits = .ok (Text.readDecimal digits) := by
    intro digits hdigits
    have heq := @gatherExponent_eq 0 digits
    rw [Nat.zero_mul, Nat.zero_add] at heq
    exact heq hdigits
  cases h with
  | none => exact ⟨0, rfl, fun start => rfl⟩
  | plus => exact ⟨_, hgather (by simpa using he), fun start => rfl⟩
  | minus => exact ⟨_, hgather (by simpa using he), fun start => rfl⟩

/-- Digits that fit are read as a number and scaled. -/
theorem scoreOfLiteral_of_literal {text : Text} {negative : Bool} {n : Nat}
    (h : Literal text negative n e) (hn : n < significandLimit)
    (he : e.natAbs + text.length < exponentLimit) :
    scoreOfLiteral text = (ofScaled? negative n e).elim (.error 0) .ok := by
  cases h with
  | @mk _ whole point fraction power k hwhole hfraction hpower =>
      have hvalue := Text.readDecimal_append whole fraction
      rw [hvalue] at hn
      have hfirst : 0 * tenPow whole.length + Text.readDecimal whole < significandLimit := by
        rw [Nat.zero_mul, Nat.zero_add]
        exact Nat.lt_of_le_of_lt (le_gathered _ fraction) hn
      have hlength : fraction.length ≤
          (signText negative ++ (whole ++ (point ++ power))).length := by
        have hpoint : fraction.length ≤ point.length := by
          cases hfraction <;> simp
        simp only [List.length_append]
        omega
      obtain ⟨m, hm, hexponent⟩ := gatherExponent_of_exponentText hpower (by omega)
      have hstart : ((0 : Nat) : Int) - (fraction.length - 0 : Nat) + k = k - fraction.length := by
        omega
      unfold scoreOfLiteral
      simp only [ofLiteral_of_parts negative hwhole hfraction hpower, gather_eq hfirst,
        Nat.zero_mul, Nat.zero_add, gather_eq hn, ← hvalue]
      -- The cases below do not depend on what scaling does, so its definition is hidden.
      obtain ⟨scaled, hscaled⟩ : ∃ scaled, scaled =
          ofScaled? negative (Text.readDecimal (whole ++ fraction)) := ⟨_, rfl⟩
      rw [← hscaled]
      simp only [hm, hexponent, hstart]
      cases scaled (k - fraction.length) <;> rfl

end Parts

/-! ### What is written is read -/

/-- A literal whose digits spell at most 2^53, with a point that is moved by at most 22 places. -/
def SimpleLiteral (text : Text) : Prop :=
  ∃ negative n e, Literal text negative n e ∧ n ≤ 0x20000000000000 ∧ e.natAbs ≤ 22

theorem short_layout (style : Style) : style.layout.Short := by
  cases style with
  | spaced => exact ⟨fun e he => (of_decide_eq_true he).2, by decide⟩
  | compact => exact ⟨fun e he => (of_decide_eq_true he).2, by decide⟩

theorem scoreOfLiteral_zero (style : Style) (negative : Bool) :
    scoreOfLiteral (style.layout.write (.finite negative .zero)) =
      .ok (.finite negative .zero) := by
  cases style <;> cases negative <;> decide +kernel

/-- The two largest magnitudes are both read as the largest one. -/
theorem scoreOfLiteral_largest (style : Style) (negative : Bool) :
    scoreOfLiteral (style.layout.write (.finite negative .largest)) =
        .ok (.finite negative .largest) ∧
      scoreOfLiteral (style.layout.write (.finite negative .secondLargest)) =
        .ok (.finite negative .largest) := by
  cases style <;> cases negative <;> constructor <;> decide +kernel

/-- Below the two largest ones, a magnitude is read as one at most two ranks away. -/
theorem scoreOfLiteral_near (style : Style) (negative : Bool) {size : Magnitude}
    (hsize : size.units ≠ 0) (hrank : size.rank + 2 < rankLimit) :
    ∃ size', scoreOfLiteral (style.layout.write (.finite negative size)) =
        .ok (.finite negative size') ∧
      size'.rank ≤ size.rank + 2 ∧ size.rank ≤ size'.rank + 2 := by
  obtain ⟨n, e, hliteral, hstands, hn, hlength⟩ :=
    Layout.literal_write_short (short_layout style) negative hsize
  have hdigits := (Text.length_decimal_le_iff (by decide)).mpr hn
  have hpos := List.length_pos_iff.mpr (Text.decimal_ne_nil n)
  have hlow := hstands.low
  have hhigh := hstands.high
  obtain ⟨size', hscaled, hnear⟩ := Binary64.exists_ofScaled? negative hstands.ne_zero hn
    (by omega) (by omega) hstands.nearest hrank
  refine ⟨size', ?_, hnear⟩
  have hfits : e.natAbs + (style.layout.write (.finite negative size)).length < exponentLimit := by
    have hlimit : exponentLimit = 2147483648 := rfl
    omega
  rw [scoreOfLiteral_of_literal hliteral (Nat.lt_trans hn (by decide)) hfits, hscaled]
  rfl

/-- A number that a style writes is read as one with bits at most two away. -/
theorem exists_scoreOfLiteral (style : Style) {x : Binary64} (h : x.isFinite = true) :
    ∃ y, scoreOfLiteral (style.layout.write x) = .ok y ∧ x.Near y := by
  cases x with
  | nan | infinite => contradiction
  | finite negative size =>
      by_cases hzero : size.units = 0
      · have hsize : size = .zero := Magnitude.ext hzero
        subst hsize
        exact ⟨_, scoreOfLiteral_zero style negative, .refl rfl⟩
      by_cases hlarge : rankLimit ≤ size.rank + 2
      · obtain ⟨hlargest, hsecond⟩ := scoreOfLiteral_largest style negative
        refine ⟨.finite negative .largest, ?_, ?_⟩
        · rcases Magnitude.eq_largest_of_rank hlarge with rfl | rfl
          · exact hlargest
          · exact hsecond
        · have hlast : Magnitude.largest.rank = rankLimit - 1 := by decide +kernel
          have hrank := size.rank_lt
          exact Binary64.near_of_rank negative (by omega) (by omega)
      · obtain ⟨size', hscore, habove, hbelow⟩ :=
          scoreOfLiteral_near style negative hzero (Nat.not_le.mp hlarge)
        exact ⟨_, hscore, Binary64.near_of_rank negative habove hbelow⟩

/-- A number whose literal is simple is read as itself. -/
theorem scoreOfLiteral_simple (style : Style) {x : Binary64} (h : x.isFinite = true)
    (hsimple : SimpleLiteral (style.layout.write x)) :
    scoreOfLiteral (style.layout.write x) = .ok x := by
  cases x with
  | nan | infinite => contradiction
  | finite negative size =>
      by_cases hzero : size.units = 0
      · have hsize : size = .zero := Magnitude.ext hzero
        subst hsize
        exact scoreOfLiteral_zero style negative
      obtain ⟨sign, n, e, hliteral, hbits, hmoved⟩ := hsimple
      obtain ⟨-, -, -, -, -, hlength⟩ :=
        Layout.literal_write_short (short_layout style) negative hzero
      -- The literal is read as the number, so the number is the nearest one.
      have hread := Layout.readLiteral?_write style.layout h
      rw [Binary64.readLiteral?_of_literal hliteral] at hread
      obtain ⟨rfl, hn, hnearest⟩ :=
        Binary64.nearestDecimal?_of_ofDecimal hzero (Option.some.inj hread)
      have hfits : e.natAbs + (style.layout.write (.finite sign size)).length <
          exponentLimit := by
        have hlimit : exponentLimit = 2147483648 := rfl
        omega
      rw [scoreOfLiteral_of_literal hliteral (Nat.lt_of_le_of_lt hbits (by decide)) hfits,
        Binary64.ofScaled?_exact sign hn hbits hmoved hnearest]
      rfl

end Json

end QueryLabel
