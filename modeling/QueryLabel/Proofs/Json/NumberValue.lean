import QueryLabel.Proofs.Binary64.Correct
import QueryLabel.Proofs.Json.NumberText

/-!
The values of numbers that are spelled anew.  A whole literal becomes the decimal text of the whole
number that it denotes, and any other one a literal that represents the same binary64 number, or a
word if that is infinite (`spellNumber?_value`).  Spelling a text again changes nothing.
-/

namespace QueryLabel.Json

open Binary64 (WholeText FractionText signText signed Represents represents_iff)

/-- A literal denotes a whole number. -/
def Denotes (literal : Text) (i : Int) : Prop :=
  ∃ numeral, Binary64.numeral? literal = some numeral ∧ numeral.value = i

/-- The decimal text of a whole number. -/
def integerText (i : Int) : Text :=
  signText (i < 0) ++ Text.decimal i.natAbs

/-- The text of a binary64 number: a literal that represents it and is no whole one, or a word if
it is infinite. -/
inductive WrittenAs : Binary64 → Text → Prop
  | finite {x : Binary64} {text : Text} (hfinite : x.isFinite = true) (hnumber : NumberLiteral text)
      (hmark : '.' ∈ text ∨ 'e' ∈ text) (hvalue : Represents text x) : WrittenAs x text
  | infinite : WrittenAs (.infinite false) "Infinity".toList
  | negativeInfinite : WrittenAs (.infinite true) "-Infinity".toList

/-! ### Spelling again -/

/-- What is written for a number is spelled as it is. -/
theorem spellNumber?_write (x : Binary64) :
    spellNumber? (Style.spacedLayout.write x) = some (Style.spacedLayout.write x) := by
  cases x with
  | nan => decide
  | infinite negative => cases negative <;> decide
  | finite negative size =>
      have hfinite : (Binary64.finite negative size).isFinite = true := rfl
      unfold spellNumber?
      rw [if_neg (by rw [isWhole_write _ hfinite]; decide), Layout.readLiteral?_write _ hfinite]
      rfl

theorem isWhole_spellWhole {literal : Text} (h : isWhole literal = true) :
    isWhole (spellWhole literal) = true := by
  rcases spellWhole_cases literal with hzero | hsame
  · rw [hzero]
    rfl
  · rw [hsame]
    exact h

theorem spellNumber?_idem {literal text : Text} (h : spellNumber? literal = some text) :
    spellNumber? text = some text := by
  unfold spellNumber? at h
  split at h
  · next hwhole =>
      cases h
      rw [spellNumber?, if_pos (isWhole_spellWhole hwhole), spellWhole_idem]
  · obtain ⟨x, -, rfl⟩ := Option.map_eq_some_iff.mp h
    exact spellNumber?_write x

/-! ### Whole literals -/

theorem isWhole_iff (literal : Text) :
    isWhole literal = true ↔ '.' ∉ literal ∧ 'e' ∉ literal ∧ 'E' ∉ literal := by
  unfold isWhole
  rw [List.all_eq_true]
  constructor
  · intro hall
    refine ⟨fun hc => ?_, fun hc => ?_, fun hc => ?_⟩ <;> exact absurd (hall _ hc) (by decide)
  · rintro ⟨hpoint, hsmall, hlarge⟩ c hc
    refine decide_eq_true ⟨?_, ?_, ?_⟩ <;> rintro rfl
    · exact hpoint hc
    · exact hsmall hc
    · exact hlarge hc

/-- A whole literal is a whole part with a sign. -/
theorem NumberLiteral.whole {literal : Text} (h : NumberLiteral literal)
    (hwhole : isWhole literal = true) :
    ∃ negative whole, WholeText whole ∧ literal = signText negative ++ whole := by
  obtain ⟨hpoint, hsmall, hlarge⟩ := (isWhole_iff literal).mp hwhole
  obtain ⟨negative, whole, point, fraction, power, e, hparts, hfraction, hpower, -, rfl⟩ :=
    h.parts
  refine ⟨negative, whole, hparts, ?_⟩
  have hnopoint : point = [] := by
    cases hfraction with
    | none => rfl
    | point => simp at hpoint
  have hnopower : power = [] := by
    cases power with
    | nil => rfl
    | cons mark rest =>
        by_cases hmark : mark = 'e' ∨ mark = 'E'
        · rcases hmark with rfl | rfl <;> simp at hsmall hlarge
        · rw [Binary64.readExponent?, if_neg hmark] at hpower
          cases hpower
  rw [hnopoint, hnopower, List.append_nil, List.append_nil]

theorem spellWhole_of_digits {whole : Text} (negative : Bool) (hne : whole ≠ [])
    (h : ∀ c ∈ whole, c.isDigit = true) (hfirst : whole.head? ≠ some '0') :
    spellWhole (signText negative ++ whole) = signText negative ++ whole := by
  cases whole with
  | nil => contradiction
  | cons first rest =>
      have hdigit := h first List.mem_cons_self
      have hzero : first ≠ '0' := fun heq => hfirst (congrArg some heq)
      have hminus : first ≠ '-' := by
        rintro rfl
        cases hdigit
      unfold spellWhole
      cases negative <;> simp [signText, hzero, hminus]

/-- Digits that do not begin with a zero are, with their sign, the decimal text of a whole
number. -/
theorem integerText_of_digits {whole : Text} (negative : Bool) (hne : whole ≠ [])
    (h : ∀ c ∈ whole, c.isDigit = true) (hfirst : whole.head? ≠ some '0') :
    ∃ i : Int, signed negative (Text.readDecimal whole) = i ∧
      integerText i = signText negative ++ whole := by
  have hpos : 0 < Text.readDecimal whole :=
    (tenPow_pos _).trans_le (Text.tenPow_le_readDecimal hne h hfirst)
  have hdecimal := Text.decimal_readDecimal hne h hfirst
  cases negative with
  | false =>
      refine ⟨Text.readDecimal whole, by simp [signed], ?_⟩
      rw [integerText, decide_eq_false (by omega), Int.natAbs_natCast, hdecimal]
  | true =>
      refine ⟨-Text.readDecimal whole, by simp [signed], ?_⟩
      rw [integerText, decide_eq_true (by omega), Int.natAbs_neg, Int.natAbs_natCast, hdecimal]

/-- A whole part with a sign denotes the number of its digits. -/
theorem denotes_whole {whole : Text} {negative : Bool} (h : WholeText whole) {i : Int}
    (hi : signed negative (Text.readDecimal whole) = i) :
    Denotes (signText negative ++ whole) i := by
  have hnumeral := @Binary64.numeral?_of_parts negative whole [] [] [] 0 h .none
    (fun c hc => by cases hc) rfl
  rw [List.append_nil, List.append_nil] at hnumeral
  have hone : powerOfTen (0 - ([] : Text).length) = 1 := Nat.cast_one
  refine ⟨_, hnumeral, ?_⟩
  rw [Binary64.Numeral.value, Binary64.Numeral.magnitude, hone, mul_one]
  exact hi

/-- A sign and a whole part spell a whole number, and are its decimal text, except for a zero with
a sign. -/
theorem spellWhole_value {whole : Text} (negative : Bool) (h : WholeText whole) :
    ∃ i : Int, Denotes (signText negative ++ whole) i ∧
      spellWhole (signText negative ++ whole) = integerText i ∧
      (signText negative ++ whole = integerText i ∨
        signText negative ++ whole = ['-', '0'] ∧ i = 0) := by
  cases h with
  | zero =>
      have hzero : signed negative (Text.readDecimal ['0']) = (0 : Int) := by
        cases negative <;> simp [signed, Text.readDecimal]
      refine ⟨0, denotes_whole .zero hzero, ?_, ?_⟩ <;> cases negative <;> decide
  | digits hne hdigits hfirst =>
      obtain ⟨i, hi, htext⟩ := integerText_of_digits negative hne hdigits hfirst
      refine ⟨i, denotes_whole (.digits hne hdigits hfirst) hi, ?_, Or.inl htext.symm⟩
      rw [spellWhole_of_digits negative hne hdigits hfirst, htext]

/-! ### All literals -/

/-- What is written for a literal that is not whole. -/
theorem writtenAs_write {literal : Text} {x : Binary64} (h : Represents literal x) :
    WrittenAs x (Style.spacedLayout.write x) := by
  obtain ⟨numeral, -, hx⟩ := h
  cases hx with
  | @finite size =>
      have hfinite : (Binary64.finite numeral.negative size).isFinite = true := rfl
      exact .finite hfinite (normalLiteral_write _ hfinite).numberLiteral
        (Style.spacedLayout.mark_mem_write hfinite)
        (represents_iff.mpr (Style.spacedLayout.readLiteral?_write hfinite))
  | infinite hle =>
      cases numeral.negative with
      | false => exact .infinite
      | true => exact .negativeInfinite

/-- Spelling a number anew keeps its value: a whole literal becomes the decimal text of the whole
number that it denotes, any other one is written for the binary64 number that it represents.  What
is spelled once is not changed any more. -/
theorem spellNumber?_value :
    (∀ literal text, spellNumber? literal = some text → spellNumber? text = some text) ∧
      ∀ literal, NumberLiteral literal →
        ('.' ∉ literal ∧ 'e' ∉ literal ∧ 'E' ∉ literal →
          ∃ i : Int, Denotes literal i ∧ spellNumber? literal = some (integerText i) ∧
            (literal = integerText i ∨ literal = ['-', '0'] ∧ i = 0)) ∧
        (¬ ('.' ∉ literal ∧ 'e' ∉ literal ∧ 'E' ∉ literal) →
          (∃ x, Represents literal x) ∧
            ∀ x, Represents literal x →
              ∃ text, spellNumber? literal = some text ∧ WrittenAs x text) := by
  refine ⟨fun literal text => spellNumber?_idem, fun literal hliteral => ⟨?_, ?_⟩⟩
  · intro hmarks
    have hwhole := (isWhole_iff literal).mpr hmarks
    obtain ⟨negative, whole, hparts, rfl⟩ := hliteral.whole hwhole
    obtain ⟨i, hdenotes, hspell, htext⟩ := spellWhole_value negative hparts
    refine ⟨i, hdenotes, ?_, htext⟩
    rw [spellNumber?, if_pos hwhole, hspell]
  · intro hmarks
    have hwhole : ¬ isWhole literal = true := fun hall => hmarks ((isWhole_iff literal).mp hall)
    obtain ⟨x, hx⟩ := hliteral.readLiteral?
    refine ⟨⟨x, represents_iff.mpr hx⟩, fun y hy => ⟨_, ?_, writtenAs_write hy⟩⟩
    rw [spellNumber?, if_neg hwhole, represents_iff.mp hy]
    rfl

/-- A fraction with a zero too many, a zero with a sign, and a number beyond the largest one. -/
theorem spellNumber?_value_three :
    let fraction : Text := ['1', '.', '5', '0']
    let zero : Text := ['-', '0']
    let large : Text := ['1', 'e', '+', '4', '0', '0']
    (spellNumber? fraction = some ['1', '.', '5'] ∧
        spellNumber? ['1', '.', '5'] = some ['1', '.', '5']) ∧
      (NumberLiteral zero ∧ ('.' ∉ zero ∧ 'e' ∉ zero ∧ 'E' ∉ zero) ∧
        ∃ i : Int, Denotes zero i ∧ spellNumber? zero = some (integerText i) ∧
          (zero = integerText i ∨ zero = ['-', '0'] ∧ i = 0)) ∧
      NumberLiteral large ∧ ¬ ('.' ∉ large ∧ 'e' ∉ large ∧ 'E' ∉ large) ∧
        Represents large (.infinite false) ∧
        ∃ text, spellNumber? large = some text ∧ WrittenAs (.infinite false) text := by
  intro fraction zero large
  have hfraction : spellNumber? fraction = some ['1', '.', '5'] := by decide +kernel
  have hzero : NumberLiteral zero :=
    (normalLiteral_of_literal (@Binary64.Literal.mk true _ _ _ _ _ .zero .none .none)).numberLiteral
  have hlarge : NumberLiteral large :=
    (normalLiteral_of_literal (@Binary64.Literal.mk false ['1'] _ _ ['e', '+', '4', '0', '0'] _
      (.digits (by decide) (List.forall_mem_singleton.mpr rfl) (by decide)) .none
      (.plus (by decide) (List.forall_mem_cons.mpr ⟨rfl, List.forall_mem_cons.mpr
        ⟨rfl, List.forall_mem_singleton.mpr rfl⟩⟩)))).numberLiteral
  have hinfinite : Represents large (.infinite false) :=
    represents_iff.mpr (by decide +kernel)
  have hmarks : ¬ ('.' ∉ large ∧ 'e' ∉ large ∧ 'E' ∉ large) := by decide
  exact ⟨⟨hfraction, spellNumber?_value.1 _ _ hfraction⟩,
    ⟨hzero, by decide, (spellNumber?_value.2 zero hzero).1 (by decide)⟩,
    hlarge, hmarks, hinfinite, ((spellNumber?_value.2 large hlarge).2 hmarks).2 _ hinfinite⟩

end QueryLabel.Json
