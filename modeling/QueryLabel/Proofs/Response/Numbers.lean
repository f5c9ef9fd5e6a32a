import QueryLabel.Proofs.Binary64.Exact
import QueryLabel.Proofs.Json.NumberValue
import QueryLabel.Proofs.Response.Printing

/-!
Numbers in responses.  The text of a score denotes the shortest decimal of the score exactly
(`renderScore_exact`), in the spaced style with the decimal that goes up from the middle, in the
compact one with the one that is even.  A literal in an identifier is written like the score that it
represents, unless that is infinite (`encode_literal_score`).
-/

namespace QueryLabel.Response

open Binary64 (signText signed numeral? Represents represents_iff)
open Layout (ScientificForm)

/-! ### Scores -/

/-- The text of a decimal with a sign in the spaced style. -/
structure SpacedForm (negative : Bool) (decimal : Decimal) (text : Text) : Prop where
  cut : (Style.spacedLayout.writeDecimal? decimal).map (signText negative ++ ·) = some text
  literal : Json.NumberLiteral text
  positional : 'e' ∉ text ↔ -4 ≤ decimal.exponent ∧ decimal.exponent < 16
  scientific : 'e' ∈ text → ScientificForm 2 decimal.exponent text
  value : ∃ numeral, numeral? text = some numeral ∧
    numeral.value = signed negative decimal.value

theorem not_mem_signText (negative : Bool) : 'e' ∉ signText negative := by
  cases negative <;> decide

theorem spacedForm_writeDecimal (negative : Bool) {decimal : Decimal} (h : decimal.Normal) :
    SpacedForm negative decimal
      (signText negative ++ Style.spacedLayout.writeDecimal decimal) := by
  have hsign := not_mem_signText negative
  obtain ⟨n, e, hliteral, -⟩ := Style.spacedLayout.literal_writeDecimal negative h
  have hpositional : Style.spacedLayout.positional decimal.exponent = true ↔
      -4 ≤ decimal.exponent ∧ decimal.exponent < 16 := decide_eq_true_iff
  have hmark : 'e' ∈ signText negative ++ Style.spacedLayout.writeDecimal decimal ↔
      ¬ Style.spacedLayout.positional decimal.exponent = true := by
    rw [List.mem_append, or_iff_right hsign, Style.spacedLayout.mem_writeDecimal_iff h]
  refine ⟨?_, (Json.normalLiteral_of_literal hliteral).numberLiteral, ?_, fun hmem => ?_,
    Style.spacedLayout.numeral?_writeDecimal negative h⟩
  · rw [Layout.writeDecimal?_eq]
    rfl
  · rw [hmark, not_not, hpositional]
  · rw [Layout.writeDecimal, if_neg (hmark.mp hmem)]
    exact (Layout.scientificForm h 2).append hsign

/-- The text of a score other than zero denotes its shortest decimal.  The two styles take the same
decimal, unless the score is in the middle between two shortest ones. -/
theorem renderScore_exact (negative : Bool) (size : Magnitude) (hsize : size.units ≠ 0) :
    let x : Binary64 := .finite negative size
    let decimal := size.shortest .up
    decimal.IsShortest size ∧ SpacedForm negative decimal (renderScore .spaced x) ∧
      ∃ numeral, numeral? (renderScore .compact x) = some numeral ∧
        (numeral.value = signed negative decimal.value ∨
          2 * signed negative size.value = signed negative decimal.value + numeral.value) := by
  intro x decimal
  have hup : decimal.IsShortest size := Magnitude.isShortest_shortest .up hsize
  have heven := Magnitude.isShortest_shortest .even hsize
  have hspaced : renderScore .spaced x =
      signText negative ++ Style.spacedLayout.writeDecimal decimal :=
    Style.spacedLayout.write_of_ne_zero negative hsize
  have hcompact : renderScore .compact x =
      signText negative ++ Style.compactLayout.writeDecimal (size.shortest .even) :=
    Style.compactLayout.write_of_ne_zero negative hsize
  obtain ⟨numeral, hnumeral, hvalue⟩ :=
    Style.compactLayout.numeral?_writeDecimal negative heven.normal
  rw [hspaced, hcompact]
  refine ⟨hup, spacedForm_writeDecimal negative hup.normal, numeral, hnumeral, ?_⟩
  rw [hvalue]
  rcases hup.eq_or_middle heven with heq | hmiddle
  · exact Or.inl (congrArg (signed negative) heq.symm)
  · right
    cases negative with
    | false => exact hmiddle
    | true =>
        change 2 * -size.value = -decimal.value + -(size.shortest .even).value
        linarith

/-- The least score, with a sign. -/
theorem renderScore_exact_least :
    let size : Magnitude := ⟨1, by decide, by decide⟩
    let x : Binary64 := .finite true size
    let decimal := size.shortest .up
    size.units ≠ 0 ∧ decimal.IsShortest size ∧ SpacedForm true decimal (renderScore .spaced x) ∧
      ∃ numeral, numeral? (renderScore .compact x) = some numeral ∧
        (numeral.value = signed true decimal.value ∨
          2 * signed true size.value = signed true decimal.value + numeral.value) := by
  intro size x decimal
  have hsize : size.units ≠ 0 := by decide
  exact ⟨hsize, renderScore_exact true size hsize⟩

/-- A score of 2^50 + 1/4 is in the middle between two decimals, and the styles take different
ones. -/
theorem renderScore_middle :
    let x : Binary64 := .ofBits 0x4310000000000001
    x.isFinite = true ∧ renderScore .spaced x = "1125899906842624.3".toList ∧
      renderScore .compact x = "1125899906842624.2".toList ∧
      ∃ spaced compact, numeral? (renderScore .spaced x) = some spaced ∧
        numeral? (renderScore .compact x) = some compact ∧ spaced.value ≠ compact.value := by
  intro x
  have hspaced : numeral? (renderScore .spaced x) = some ⟨false, 11258999068426243, -1⟩ := by
    decide +kernel
  have hcompact : numeral? (renderScore .compact x) = some ⟨false, 11258999068426242, -1⟩ := by
    decide +kernel
  refine ⟨by decide +kernel, by decide +kernel, by decide +kernel, _, _, hspaced, hcompact, ?_⟩
  intro hsame
  have hdigits := mul_right_cancel₀ (powerOfTen_pos (-1)).ne' hsame
  norm_num at hdigits

/-! ### Identifiers -/

/-- A prediction by its label and the texts of its identifier and its score. -/
def predictionText (idText label scoreText : Text) : Text :=
  '{' :: renderField .spaced "id" idText ++ Style.spaced.itemSeparator ++
    renderField .spaced "type" (Json.renderString .spaced label) ++
    Style.spaced.itemSeparator ++ renderField .spaced "score" scoreText ++ ['}']

theorem renderPrediction_spaced (prediction : Prediction) :
    renderPrediction .spaced prediction = predictionText (Json.render .spaced prediction.id)
      prediction.label (renderScore .spaced prediction.score) := rfl

/-- The text around a prediction does not depend on it. -/
theorem renderPredictions_at (style : Style) (before after : List Prediction) :
    ∃ front back, ∀ prediction, renderPredictions style (before ++ prediction :: after) =
      front ++ renderPrediction style prediction ++ back := by
  induction before with
  | nil =>
      cases after with
      | nil => exact ⟨[], [], fun prediction => (List.append_nil _).symm⟩
      | cons next rest =>
          exact ⟨[], style.itemSeparator ++ renderPredictions style (next :: rest),
            fun prediction => List.append_assoc _ _ _⟩
  | cons first rest ih =>
      obtain ⟨front, back, hrest⟩ := ih
      refine ⟨renderPrediction style first ++ style.itemSeparator ++ front, back, ?_⟩
      intro prediction
      have hstep : renderPredictions style (first :: (rest ++ prediction :: after)) =
          renderPrediction style first ++ style.itemSeparator ++
            renderPredictions style (rest ++ prediction :: after) := by
        cases rest <;> rfl
      rw [List.cons_append, hstep, hrest]
      simp only [List.append_assoc]

/-- Where a response shows a prediction among others whose identifiers hold numbers of the
grammar. -/
theorem encode_spaced_at (before after : List Prediction)
    (hothers : ∀ other ∈ before ++ after, Json.EveryNumber Json.NumberLiteral other.id) :
    ∃ front back, ∀ prediction : Prediction,
      Json.EveryNumber Json.NumberLiteral prediction.id →
        encode .spaced ⟨before ++ prediction :: after⟩ =
          .ok (front ++ predictionText (Json.render .spaced prediction.id) prediction.label
            (renderScore .spaced prediction.score) ++ back) := by
  obtain ⟨front, back, hat⟩ := renderPredictions_at .spaced before after
  refine ⟨'{' :: Json.renderString .spaced predictionsKey ++ Style.spaced.keySeparator ++
    '[' :: front, back ++ [']', '}'], fun prediction hid => ?_⟩
  have hnumbers : ∀ other ∈ before ++ prediction :: after,
      Json.EveryNumber Json.NumberLiteral other.id := by
    intro other hother
    simp only [List.mem_append, List.mem_cons] at hother hothers
    rcases hother with hbefore | rfl | hafter
    · exact hothers other (Or.inl hbefore)
    · exact hid
    · exact hothers other (Or.inr hafter)
  rw [encode_of_numbers hnumbers, render, hat, renderPrediction_spaced]
  simp only [List.append_assoc, List.cons_append]

/-- In every response a literal as an identifier is shown by one text, and a score by another one. -/
def Shows (literal : Text) (x : Binary64) (idText scoreText : Text) : Prop :=
  ∀ before after : List Prediction,
    (∀ other ∈ before ++ after, Json.EveryNumber Json.NumberLiteral other.id) →
      ∃ front back, ∀ label,
        (∀ score, encode .spaced ⟨before ++ ⟨.number literal, label, score⟩ :: after⟩ =
          .ok (front ++ predictionText idText label (renderScore .spaced score) ++ back)) ∧
        ∀ id, Json.EveryNumber Json.NumberLiteral id →
          encode .spaced ⟨before ++ ⟨id, label, x⟩ :: after⟩ =
            .ok (front ++ predictionText (Json.render .spaced id) label scoreText ++ back)

/-- A literal that is not whole and a score that it represents are shown by the same text, if the
score is finite.  If it is infinite, the literal is shown by a word and the score by a null. -/
theorem encode_literal_score (literal : Text) (hliteral : Json.NumberLiteral literal)
    (hmark : '.' ∈ literal ∨ 'e' ∈ literal ∨ 'E' ∈ literal) (x : Binary64)
    (hx : Represents literal x) :
    ∃ idText scoreText, Shows literal x idText scoreText ∧
      (x.isFinite = true → idText = scoreText) ∧
      ∀ negative, x = .infinite negative →
        idText = signText negative ++ "Infinity".toList ∧ scoreText = "null".toList := by
  have hwhole : ¬ Json.isWhole literal = true := by
    rw [Json.isWhole_iff]
    rintro ⟨hpoint, hsmall, hlarge⟩
    rcases hmark with hmem | hmem | hmem <;> contradiction
  have hid : Json.render .spaced (.number literal) = Style.spacedLayout.write x := by
    have hspell : Json.spellNumber? literal = some (Style.spacedLayout.write x) := by
      rw [Json.spellNumber?, if_neg hwhole, represents_iff.mp hx]
      rfl
    rw [Json.render, Json.renderNumber, Json.numberText?, hspell]
    rfl
  refine ⟨Style.spacedLayout.write x, renderScore .spaced x, ?_, ?_, ?_⟩
  · intro before after hothers
    obtain ⟨front, back, hat⟩ := encode_spaced_at before after hothers
    refine ⟨front, back, fun label => ⟨fun score => ?_, fun id => hat ⟨id, label, x⟩⟩⟩
    rw [← hid]
    exact hat ⟨.number literal, label, score⟩ (.number hliteral)
  · intro hfinite
    rw [renderScore, if_pos hfinite]
    rfl
  · rintro negative rfl
    cases negative <;> exact ⟨rfl, rfl⟩

/-- One half, spelled with a zero too many. -/
theorem encode_literal_score_half :
    let literal : Text := ['0', '.', '5', '0']
    let x : Binary64 := .ofBits 0x3FE0000000000000
    Json.NumberLiteral literal ∧ ('.' ∈ literal ∨ 'e' ∈ literal ∨ 'E' ∈ literal) ∧
      Represents literal x ∧
      ∃ idText scoreText, Shows literal x idText scoreText ∧
        (x.isFinite = true → idText = scoreText) ∧
        ∀ negative, x = .infinite negative →
          idText = signText negative ++ "Infinity".toList ∧ scoreText = "null".toList := by
  intro literal x
  have hliteral : Json.NumberLiteral literal :=
    (Json.normalLiteral_of_literal (@Binary64.Literal.mk false _ _ ['5', '0'] _ _ .zero
      (.point (by decide) (List.forall_mem_cons.mpr ⟨rfl, List.forall_mem_singleton.mpr rfl⟩))
      .none)).numberLiteral
  have hmark : '.' ∈ literal ∨ 'e' ∈ literal ∨ 'E' ∈ literal := by decide
  have hx : Represents literal x := represents_iff.mpr (by decide +kernel)
  exact ⟨hliteral, hmark, hx, encode_literal_score literal hliteral hmark x hx⟩

/-- A literal beyond the largest number and the infinite score that it represents are not shown by
the same text. -/
theorem encode_literal_score_overflow :
    let literal : Text := ['1', 'e', '4', '0', '0']
    let x : Binary64 := .infinite false
    Json.NumberLiteral literal ∧ 'e' ∈ literal ∧ Represents literal x ∧
      encode .spaced ⟨[⟨.number literal, "any".toList, x⟩]⟩ =
        .ok ("\x7b\"predictions\": [\x7b\"id\": Infinity, \"type\": \"any\", " ++
          "\"score\": null\x7d]\x7d").toList ∧
      ¬ ∃ text, Shows literal x text text := by
  intro literal x
  have hspells := Json.SpellsNumber.mk (Or.inl rfl)
    (@Json.WholePart.digits (Text.ascii '1') [] (by decide) (by decide) (List.forall_mem_nil _))
    .none (@Json.ExponentPart.unsigned (Text.ascii 'e') (['4', '0', '0'].map Text.ascii)
      (Or.inl rfl) ⟨by decide, List.forall_mem_cons.mpr ⟨rfl, List.forall_mem_cons.mpr
        ⟨rfl, List.forall_mem_singleton.mpr rfl⟩⟩⟩)
  have hliteral : Json.NumberLiteral literal := ⟨_, hspells⟩
  refine ⟨hliteral, by decide, represents_iff.mpr (by decide +kernel), by decide +kernel, ?_⟩
  rintro ⟨text, hshows⟩
  obtain ⟨front, back, hat⟩ := hshows [] [] (List.forall_mem_nil _)
  obtain ⟨hid, hscore⟩ := hat "any".toList
  have hsame := (hid x).symm.trans (hscore (.number literal) (.number hliteral))
  have hlength := congrArg List.length (Except.ok.inj hsame)
  have hnull : (renderScore .spaced x).length = 4 := rfl
  have hword : (Json.render .spaced (.number literal)).length = 8 := by decide +kernel
  simp only [predictionText, renderField, List.length_append, List.length_cons, hnull,
    hword] at hlength
  omega

end QueryLabel.Response
