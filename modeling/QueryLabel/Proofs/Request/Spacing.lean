import QueryLabel.Engine
import QueryLabel.Proofs.Json.Spacing
import QueryLabel.Proofs.Request

/-!
White space never matters in a request (`decode_spread`): a document has one division into
tokens, and every document with the same tokens is the same request, for which every engine gives
the same answer.
-/

namespace QueryLabel.Request

open Json (Lexed Spread)

/-- Two documents that are read as the same value are the same request. -/
theorem decode_congr {document other : List UInt8} {value : Json}
    (h : Json.parse document = .ok value) (h' : Json.parse other = .ok value) :
    decode other = decode document := by
  rw [decode_of_parse h, decode_of_parse h']

/-- Documents that are decoded alike are answered alike. -/
theorem run_congr {document other : List UInt8} (engine : Engine)
    (h : decode other = decode document) : engine.run other = engine.run document := by
  simp only [Engine.run, Engine.decode, h]

/-- A document that is decoded has one division into tokens.  However its tokens are spread, with
any white space before, between and behind them, the request is the same one, and so is the answer
of every engine. -/
theorem decode_spread (document : List UInt8) (request : Request)
    (h : decode document = .ok request) :
    ∃ tokens, (∀ found, Lexed document found ↔ found = tokens) ∧
      ∀ other, Spread tokens other →
        decode other = .ok request ∧
          ∀ engine : Engine, engine.run other = engine.run document := by
  cases hparse : Json.parse document with
  | error e =>
      rw [decode_of_parse_error hparse] at h
      contradiction
  | ok value =>
      obtain ⟨tokens, hlexed, hspread⟩ := Json.parse_spread hparse
      refine ⟨tokens, ?_, ?_⟩
      · intro found
        constructor
        · exact fun hfound => Json.lexed_unique hfound hlexed
        · rintro rfl
          exact hlexed
      · intro other hother
        have hsame := decode_congr hparse (hspread other hother)
        exact ⟨by rw [hsame, h], fun engine => run_congr engine hsame⟩

/-- A document with white space in front of a mark, behind a number and at its end. -/
theorem decode_spread_padded :
    let document := "\x7b\"queries\" :[\x7b\"id\":1E5 \x7d]\x7d\n".toList.map Text.ascii
    let request : Request := ⟨[.withId (.number "1e+5".toList)]⟩
    decode document = .ok request ∧
      ∃ tokens, (∀ found, Lexed document found ↔ found = tokens) ∧
        ∀ other, Spread tokens other →
          decode other = .ok request ∧
            ∀ engine : Engine, engine.run other = engine.run document := by
  intro document request
  have hdecode : decode document = .ok request := rfl
  exact ⟨hdecode, decode_spread document request hdecode⟩

end QueryLabel.Request
