import QueryLabel.Proofs.Json.Encoding
import QueryLabel.Proofs.Request

/-!
Requests are texts (`decode_encoding`): bytes that are not refused for their syntax are well-formed
UTF-8 from the first to the last, whether a field is used or ignored, and no escape among them is a
lone surrogate.
-/

namespace QueryLabel.Request

/-- A document that is not refused for its syntax is well-formed UTF-8, and has no lone surrogate
among its escapes. -/
theorem decode_encoding (document : List UInt8)
    (h : ∀ message position, decode document ≠ .error (.parse message position)) :
    Utf8.WellFormed document ∧ Json.Paired document := by
  obtain ⟨value, hparse⟩ := not_parse_error_iff.mp h
  obtain ⟨tree, hdocument, -⟩ := Json.parse_eq_ok_iff.mp hparse
  exact Json.text_of_document hdocument

/-- A document that is refused for its queries, with a raw character beyond ASCII in an ignored
field and a surrogate pair in its key. -/
theorem decode_encoding_ignored :
    let document := Utf8.encode "\x7b\"\\ud83d\\ude00\": \"é\", \"queries\": 1\x7d".toList
    (∀ message position, decode document ≠ .error (.parse message position)) ∧
      Utf8.WellFormed document ∧ Json.Paired document := by
  intro document
  have hdecode : decode document = .error (.queriesNotArray .number) := rfl
  have hnot : ∀ message position, decode document ≠ .error (.parse message position) := by
    intro message position h
    rw [hdecode] at h
    cases h
  exact ⟨hnot, decode_encoding document hnot⟩

end QueryLabel.Request
