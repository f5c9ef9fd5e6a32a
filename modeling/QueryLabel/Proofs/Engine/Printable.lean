import QueryLabel.Proofs.Engine
import QueryLabel.Proofs.Json.Printable

/-!
Responses are clean text.  The text of a response is one line without control characters, in the
spaced style printable ASCII throughout, and a run of the constant predictor never fails to write
one (`encode_printable`).
-/

namespace QueryLabel

open Json (EveryNumber NumberLiteral)

namespace Response

variable {style : Style}

theorem printable_renderField (style : Style) (key : String) {value : Text}
    (h : Printable style value) : Printable style (renderField style key value) := by
  simp only [renderField, printable_append]
  exact ⟨⟨Json.printable_renderString style key.toList, printable_keySeparator⟩, h⟩

/-- Every score is printable: what is not finite is a null. -/
theorem printable_renderScore (style : Style) (score : Binary64) :
    Printable style (renderScore style score) := by
  unfold renderScore
  by_cases hfinite : score.isFinite = true
  · rw [if_pos hfinite]
    exact Json.printable_write style.layout hfinite
  · rw [if_neg hfinite]
    exact Json.printable_render .null

theorem printable_renderPrediction {prediction : Prediction}
    (h : EveryNumber NumberLiteral prediction.id) :
    Printable style (renderPrediction style prediction) := by
  have hopen : PrintableChar style '{' := printableChar_of_ascii (by decide) (by decide)
  have hclose : PrintableChar style '}' := printableChar_of_ascii (by decide) (by decide)
  have hid := printable_renderField style "id" (Json.printable_render h)
  have hlabel := printable_renderField style "type"
    (Json.printable_renderString style prediction.label)
  have hscore := printable_renderField style "score" (printable_renderScore style prediction.score)
  simp [renderPrediction, hopen, hclose, hid, hlabel, hscore, printable_itemSeparator]

theorem printable_renderPredictions {predictions : List Prediction}
    (h : ∀ prediction ∈ predictions, EveryNumber NumberLiteral prediction.id) :
    Printable style (renderPredictions style predictions) := by
  induction predictions with
  | nil => exact printable_nil
  | cons prediction rest ih =>
      obtain ⟨hprediction, hrest⟩ := List.forall_mem_cons.mp h
      have hhead := @printable_renderPrediction style _ hprediction
      cases rest with
      | nil => exact hhead
      | cons next rest =>
          simp only [renderPredictions, printable_append]
          exact ⟨⟨hhead, printable_itemSeparator⟩, ih hrest⟩

theorem printable_render {response : Response}
    (h : ∀ prediction ∈ response.predictions, EveryNumber NumberLiteral prediction.id) :
    Printable style (response.render style) := by
  have hbracket : Printable style ['[', ']', '{', '}'] := by
    cases style <;> decide
  have hpredictions := @printable_renderPredictions style _ h
  have hkey := Json.printable_renderString style predictionsKey
  simp only [printable_cons] at hbracket
  simp [render, hbracket, hkey, hpredictions, printable_keySeparator]

end Response

namespace Engine

/-- A response whose identifiers hold numbers of the grammar is encoded, whatever its labels and
scores are: the spaced text in printable ASCII, the compact one without a control character.  So a
run of the constant predictor fails with an input error or not at all. -/
theorem encode_printable (model : Model) :
    (∀ response : Response,
      (∀ prediction ∈ response.predictions, EveryNumber NumberLiteral prediction.id) →
        (∃ text, response.encode .spaced = .ok text ∧
          ∀ b ∈ Utf8.encode text, 0x20 ≤ b.toNat ∧ b.toNat ≤ 0x7E) ∧
        ∃ text, response.encode .compact = .ok text ∧
          ∀ b ∈ Utf8.encode text, 0x20 ≤ b.toNat) ∧
      ∀ (style : Style) (input : List UInt8),
        (∃ text, run ⟨.constant, model, style⟩ input = .ok text) ∨
          ∃ e, run ⟨.constant, model, style⟩ input = .error (.input e) := by
  constructor
  · intro response hnumbers
    constructor
    · refine ⟨response.render .spaced, Response.encode_of_numbers hnumbers, ?_⟩
      intro b hb
      obtain ⟨hlow, hhigh⟩ := (Response.printable_render hnumbers).encode b hb
      have hlt := hhigh rfl
      omega
    · refine ⟨response.render .compact, Response.encode_of_numbers hnumbers, ?_⟩
      intro b hb
      exact ((Response.printable_render hnumbers).encode b hb).1
  · intro style input
    rw [run_constant]
    cases Request.decode input with
    | error e => exact Or.inr ⟨e, rfl⟩
    | ok request => exact Or.inl ⟨_, rfl⟩

/-- A number that only the spaced style spells anew, a label with a control and a character beyond
the basic plane, and a score that is no number. -/
theorem encode_printable_one :
    let response : Response := ⟨[⟨.array [.number ['1', 'E', '5']], ['\n', '😀', '\x7f'], .nan⟩]⟩
    (∀ prediction ∈ response.predictions, EveryNumber NumberLiteral prediction.id) ∧
      (∃ text, response.encode .spaced = .ok text ∧
        ∀ b ∈ Utf8.encode text, 0x20 ≤ b.toNat ∧ b.toNat ≤ 0x7E) ∧
      ∃ text, response.encode .compact = .ok text ∧ ∀ b ∈ Utf8.encode text, 0x20 ≤ b.toNat := by
  intro response
  have hdigits : Json.Digits [Text.ascii '5'] :=
    ⟨List.cons_ne_nil _ _, List.forall_mem_singleton.mpr (by decide)⟩
  have hliteral : NumberLiteral ['1', 'E', '5'] :=
    ⟨_, .mk (Or.inl rfl) (.digits (d := Text.ascii '1') (by decide) (by decide)
      (List.forall_mem_nil _)) .none (.unsigned (Or.inr rfl) hdigits)⟩
  have hnumbers : ∀ prediction ∈ response.predictions,
      EveryNumber NumberLiteral prediction.id :=
    List.forall_mem_singleton.mpr (.array (List.forall_mem_singleton.mpr (.number hliteral)))
  exact ⟨hnumbers, (encode_printable ⟨none⟩).1 response hnumbers⟩

end Engine

end QueryLabel
