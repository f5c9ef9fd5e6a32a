import QueryLabel.Proofs.Json.Score
import QueryLabel.Proofs.Response.Decoding

/-!
Responses that are written and read again.  Compact text is read as the response that was written,
but for its scores: they are read by scaling, and may come back with bits at most two away
(`decode_encode_compact`).
-/

namespace QueryLabel.Response

open Json (SimpleLiteral scoreOfLiteral)

/-- The score that is read where one was written. -/
def scoreRead (style : Style) (score : Binary64) : Binary64 :=
  (scoreOfLiteral (style.layout.write score)).toOption.getD score

theorem scoreOfLiteral_write (style : Style) {score : Binary64} (h : score.isFinite = true) :
    scoreOfLiteral (style.layout.write score) = .ok (scoreRead style score) := by
  obtain ⟨read, hread, -⟩ := Json.exists_scoreOfLiteral style h
  rw [scoreRead, hread]
  rfl

theorem near_scoreRead (style : Style) {score : Binary64} (h : score.isFinite = true) :
    score.Near (scoreRead style score) := by
  obtain ⟨read, hread, hnear⟩ := Json.exists_scoreOfLiteral style h
  rw [scoreRead, hread]
  exact hnear

theorem scoreRead_simple (style : Style) {score : Binary64} (h : score.isFinite = true)
    (hsimple : SimpleLiteral (style.layout.write score)) : scoreRead style score = score := by
  rw [scoreRead, Json.scoreOfLiteral_simple style h hsimple]
  rfl

/-- Compact text is read as the response that was written, but for the scores.  Each of them comes
back with its sign and with bits at most two away, and as it was if its literal is simple. -/
theorem decode_encode_compact (response : Response)
    (hparsed : ∀ prediction ∈ response.predictions,
      ∃ document, Json.parse document = .ok prediction.id)
    (hdepth : ∀ prediction ∈ response.predictions, prediction.id.depth ≤ 124)
    (hscore : ∀ prediction ∈ response.predictions, prediction.score.isFinite = true) :
    ∃ text, ∃ read : Binary64 → Binary64, response.encode .compact = .ok text ∧
      decode (Utf8.encode text) = .ok ⟨response.predictions.map fun prediction =>
        { prediction with score := read prediction.score }⟩ ∧
      ∀ prediction ∈ response.predictions,
        prediction.score.Near (read prediction.score) ∧
          (SimpleLiteral (Style.compactLayout.write prediction.score) →
            read prediction.score = prediction.score) := by
  have hplain : ∀ prediction ∈ response.predictions, Json.Plain prediction.id := by
    intro prediction hprediction
    obtain ⟨document, hdocument⟩ := hparsed prediction hprediction
    exact (Json.plain_of_parse hdocument).1
  have hscores : Scores .compact (fun prediction => scoreRead .compact prediction.score)
      response.predictions := by
    intro prediction hprediction
    have hspaceable : Json.Spaceable .compact prediction.id := fun hstyle => by cases hstyle
    exact ⟨⟨hplain prediction hprediction, hspaceable, hdepth prediction hprediction,
      hscore prediction hprediction⟩, scoreOfLiteral_write .compact (hscore prediction hprediction)⟩
  refine ⟨response.render .compact, scoreRead .compact, encode_eq_render hplain, ?_, ?_⟩
  · rw [decode_render hscores]
    unfold readBack
    simp only [Json.respell_compact]
  · intro prediction hprediction
    have hfinite := hscore prediction hprediction
    exact ⟨near_scoreRead .compact hfinite, scoreRead_simple .compact hfinite⟩

/-- A nested identifier with a negative zero for its score, and a null with the least score. -/
theorem decode_encode_compact_one :
    let response : Response := ⟨[⟨.array [.number ['1', '.', '5', '0']], ['é', '😀'], .zero true⟩,
      ⟨.null, [], .ofBits 1⟩]⟩
    (∀ prediction ∈ response.predictions, ∃ document, Json.parse document = .ok prediction.id) ∧
      ∃ text, ∃ read : Binary64 → Binary64, response.encode .compact = .ok text ∧
        decode (Utf8.encode text) = .ok ⟨response.predictions.map fun prediction =>
          { prediction with score := read prediction.score }⟩ ∧
        ∀ prediction ∈ response.predictions,
          prediction.score.Near (read prediction.score) ∧
            (SimpleLiteral (Style.compactLayout.write prediction.score) →
              read prediction.score = prediction.score) := by
  intro response
  have hparsed : ∀ prediction ∈ response.predictions,
      ∃ document, Json.parse document = .ok prediction.id :=
    List.forall_mem_cons.mpr ⟨⟨"[1.50]".toList.map Text.ascii, rfl⟩,
      List.forall_mem_singleton.mpr ⟨"null".toList.map Text.ascii, rfl⟩⟩
  refine ⟨hparsed, decode_encode_compact response hparsed ?_ ?_⟩
  · exact List.forall_mem_cons.mpr ⟨by decide, List.forall_mem_singleton.mpr (by decide)⟩
  · exact List.forall_mem_cons.mpr ⟨rfl, List.forall_mem_singleton.mpr (by decide +kernel)⟩

/-- A score of about 1.16e-7 comes back with bits two away, so the response does not come back. -/
theorem decode_encode_compact_inexact :
    let score : Binary64 := .ofBits 0x3E7F386A2A0B4C4D
    let response : Response := ⟨[⟨.null, "any".toList, score⟩]⟩
    (∃ document, Json.parse document = .ok .null) ∧ score.isFinite = true ∧
      ∃ text, response.encode .compact = .ok text ∧
        decode (Utf8.encode text) ≠ .ok response := by
  intro score response
  refine ⟨⟨"null".toList.map Text.ascii, rfl⟩, by decide +kernel,
    response.render .compact, rfl, ?_⟩
  intro hdecode
  have hscores : ((decode (Utf8.encode (response.render .compact))).toOption.map fun decoded =>
      decoded.predictions.map (·.score)) = some [.ofBits 0x3E7F386A2A0B4C4F] := by
    decide +kernel
  have hread : ∀ other, decode (Utf8.encode (response.render .compact)) =
      .ok ⟨[⟨.null, "any".toList, other⟩]⟩ → other = .ofBits 0x3E7F386A2A0B4C4F := by
    intro other hother
    rw [hother] at hscores
    exact (List.cons.inj (Option.some.inj hscores)).1
  have hne : score ≠ .ofBits 0x3E7F386A2A0B4C4F := by decide +kernel
  exact hne (hread score hdecode)

end QueryLabel.Response
