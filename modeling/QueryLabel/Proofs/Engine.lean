import QueryLabel.Proofs.Engine.Positional
import QueryLabel.Proofs.Response.Decoding

/-!
Runs of the constant predictor.  The response of a run can be read again and answers the queries
one by one (`decode_run_compact`), and a response that is given back as a request is answered
with itself (`run_again`).
-/

namespace QueryLabel

open Json (Plain Members)

namespace Request

theorem idOrNull_ofObject (members : Members) :
    (Query.ofObject members).idOrNull = .null ∨
      (Query.idKey, (Query.ofObject members).idOrNull) ∈ members := by
  unfold Query.idOrNull
  rw [id_ofObject]
  cases hfind : members.find? Query.idKey with
  | none => exact Or.inl rfl
  | some id => exact Or.inr (Members.mem_of_find? hfind)

/-- Identifiers are plain, and three containers less deep than the document they come from. -/
theorem plain_of_decode {document : List UInt8} {request : Request}
    (h : decode document = .ok request) :
    ∀ query ∈ request.queries,
      Plain query.idOrNull ∧ query.idOrNull.depth ≤ Response.idDepthLimit := by
  intro query hquery
  obtain ⟨members, rfl, hplain, hdepth⟩ := object_of_decode h query hquery
  rcases idOrNull_ofObject members with hnull | hid
  · rw [hnull]
    exact ⟨.null, Nat.zero_le _⟩
  · have hlimit : Json.depthLimit = Response.idDepthLimit + 3 := rfl
    have hmember := Json.depth_le_of_mem_members hid
    cases hplain with
    | object _ _ hmembers =>
        refine ⟨hmembers _ hid, ?_⟩
        simp only [Json.depth] at hdepth hmember
        omega

end Request

/-- The answer of the constant predictor to every query. -/
def Request.placeholders (request : Request) : List Prediction :=
  request.queries.map fun query => .placeholder query.idOrNull

namespace Engine

theorem eachQuery_ok (f : Query → Prediction) (queries : List Query) :
    Predictor.eachQuery (fun query => .ok (f query)) queries = .ok (queries.map f) := by
  induction queries with
  | nil => rfl
  | cons query rest ih => simp [Predictor.eachQuery, ih, bind, Except.bind]

theorem predict_constant (model : Model) (style : Style) (request : Request) :
    predict ⟨.constant, model, style⟩ request = .ok ⟨request.placeholders⟩ := by
  have hbatch := eachQuery_ok (fun query => .placeholder query.idOrNull) request.queries
  refine (predict_ofQuery ⟨.constant, model, style⟩ _ _ request).trans ?_
  rw [hbatch]
  rfl

/-- A run succeeds with the text of the placeholders of the decoded request. -/
theorem run_constant_eq_ok_iff {model : Model} {style : Style} {input : List UInt8} {out : Text} :
    run ⟨.constant, model, style⟩ input = .ok out ↔
      ∃ request, Request.decode input = .ok request ∧
        Response.encode style ⟨request.placeholders⟩ = .ok out := by
  simp [run_eq_ok_iff, predict_constant]

/-- A run renders the placeholders of the decoded request, or says why there is none. -/
theorem run_constant (model : Model) (style : Style) (input : List UInt8) :
    run ⟨.constant, model, style⟩ input =
      match Request.decode input with
      | .error e => .error (.input e)
      | .ok request => .ok (Response.render style ⟨request.placeholders⟩) := by
  cases hdecode : Request.decode input with
  | error e => exact run_of_decode_error hdecode
  | ok request =>
      apply run_constant_eq_ok_iff.mpr
      refine ⟨request, hdecode, Response.encode_eq_render ?_⟩
      intro prediction hprediction
      obtain ⟨query, hquery, rfl⟩ := List.mem_map.mp hprediction
      exact (Request.plain_of_decode hdecode query hquery).1

theorem render_of_encode {style : Style} {response : Response} {out : Text}
    (h : response.encode style = .ok out) : out = response.render style := by
  unfold Response.encode at h
  split at h
  · cases h
    rfl
  · contradiction

/-- The answers of a run can be written and read again. -/
theorem writable_placeholders {style : Style} {request : Request} {document : List UInt8}
    (h : Request.decode document = .ok request)
    (hspaceable : ∀ query ∈ request.queries, Json.Spaceable style query.idOrNull) :
    ∀ prediction ∈ request.placeholders, prediction.Writable style := by
  intro prediction hprediction
  obtain ⟨query, hquery, rfl⟩ := List.mem_map.mp hprediction
  obtain ⟨hplain, hdepth⟩ := Request.plain_of_decode h query hquery
  exact ⟨hplain, hspaceable query hquery, hdepth, rfl⟩

/-! ### Reading the response -/

theorem toBits_placeholderScore : Prediction.placeholderScore.toBits = 0 := by
  decide +kernel

theorem scoreOfLiteral_placeholder :
    Json.scoreOfLiteral (Style.compactLayout.write Prediction.placeholderScore) =
      .ok Prediction.placeholderScore := by
  have hread : (Json.scoreOfLiteral
      (Style.compactLayout.write Prediction.placeholderScore)).toOption =
        some Prediction.placeholderScore := by
    decide +kernel
  exact eq_ok_of_toOption hread

theorem readBack_compact (id : Json) :
    Response.readBack .compact (fun _ => Prediction.placeholderScore) (.placeholder id) =
      .placeholder id := by
  unfold Response.readBack
  rw [Json.respell_compact]
  rfl

/-- The compact text of a run is read as a response with one prediction for each query: the label
`any`, the score zero and the identifier of the query, as it was read. -/
theorem decode_run_compact (model : Model) (input : List UInt8) (out : Text)
    (hrun : run ⟨.constant, model, .compact⟩ input = .ok out) :
    ∃ request response, Request.decode input = .ok request ∧
      Response.decode (Utf8.encode out) = .ok response ∧
      response.predictions.length = request.queries.length ∧
      ∀ (i : Nat) (hprediction : i < response.predictions.length)
        (hquery : i < request.queries.length),
        response.predictions[i].label = "any".toList ∧
          response.predictions[i].score.toBits = 0 ∧
          response.predictions[i].id = request.queries[i].idOrNull := by
  obtain ⟨request, hdecode, hencode⟩ := run_constant_eq_ok_iff.mp hrun
  have hwritable := writable_placeholders hdecode fun query _ =>
    (show Json.Spaceable .compact query.idOrNull from fun hstyle => by cases hstyle)
  have hscores : Response.Scores .compact (fun _ => Prediction.placeholderScore)
      request.placeholders := by
    intro prediction hprediction
    refine ⟨hwritable prediction hprediction, ?_⟩
    obtain ⟨query, -, rfl⟩ := List.mem_map.mp hprediction
    exact scoreOfLiteral_placeholder
  have hread := Response.decode_render hscores
  have hmap : request.placeholders.map (Response.readBack .compact
      fun _ => Prediction.placeholderScore) = request.placeholders := by
    unfold Request.placeholders
    rw [List.map_map]
    apply List.map_congr_left
    intro query _
    exact readBack_compact query.idOrNull
  rw [hmap, ← render_of_encode hencode] at hread
  refine ⟨request, ⟨request.placeholders⟩, hdecode, hread, List.length_map _, ?_⟩
  intro i hprediction hquery
  simp only [Request.placeholders, List.getElem_map]
  exact ⟨rfl, toBits_placeholderScore, rfl⟩

/-- One query whose identifier has two numbers. -/
theorem decode_run_compact_one :
    let input := "\x7b\"queries\": [\x7b\"id\": [1E5, -0]\x7d]\x7d".toList.map Text.ascii
    let out :=
      "\x7b\"predictions\":[\x7b\"id\":[1e+5,-0],\"type\":\"any\",\"score\":0.0\x7d]\x7d".toList
    run ⟨.constant, ⟨none⟩, .compact⟩ input = .ok out ∧
      ∃ request response, Request.decode input = .ok request ∧
        Response.decode (Utf8.encode out) = .ok response ∧
        response.predictions.length = request.queries.length ∧
        ∀ (i : Nat) (hprediction : i < response.predictions.length)
          (hquery : i < request.queries.length),
          response.predictions[i].label = "any".toList ∧
            response.predictions[i].score.toBits = 0 ∧
            response.predictions[i].id = request.queries[i].idOrNull := by
  intro input out
  have hrun : run ⟨.constant, ⟨none⟩, .compact⟩ input = .ok out :=
    eq_ok_of_toOption (by decide +kernel)
  exact ⟨hrun, decode_run_compact ⟨none⟩ input out hrun⟩

/-! ### Giving the response back -/

/-- The text of a response behind its key. -/
def behindKey (style : Style) (predictions : List Prediction) : Text :=
  style.keySeparator ++ '[' :: Response.renderPredictions style predictions ++ [']', '}']

theorem renderUnder_predictions (style : Style) (predictions : List Prediction) :
    Response.renderUnder style Response.predictionsKey predictions =
      "\x7b\"predictions\"".toList ++ behindKey style predictions := by
  have hkey : '{' :: Json.renderString style Response.predictionsKey =
      "\x7b\"predictions\"".toList := by
    cases style <;> decide
  rw [← hkey]
  simp [Response.renderUnder, behindKey]

theorem renderUnder_queries (style : Style) (predictions : List Prediction) :
    Response.renderUnder style Request.queriesKey predictions =
      "\x7b\"queries\"".toList ++ behindKey style predictions := by
  have hkey : '{' :: Json.renderString style Request.queriesKey =
      "\x7b\"queries\"".toList := by
    cases style <;> decide
  rw [← hkey]
  simp [Response.renderUnder, behindKey]

/-- The query that a prediction is, when it is read as one. -/
def queryOf (style : Style) (prediction : Prediction) : Query :=
  .ofObject [("id".toList, Json.respell style prediction.id),
    ("type".toList, .string prediction.label),
    ("score".toList, .number (style.layout.write prediction.score))]

theorem idOrNull_queryOf (style : Style) (prediction : Prediction) :
    (queryOf style prediction).idOrNull = Json.respell style prediction.id := by
  simp [queryOf, Query.ofObject, Members.take?, Query.idKey, Query.idOrNull]

/-- Predictions under the key of queries are a request with their identifiers. -/
theorem ofJson_treeUnder (style : Style) (predictions : List Prediction) :
    Request.ofJson (Response.treeUnder style Request.queriesKey predictions) =
      .ok ⟨predictions.map (queryOf style)⟩ :=
  Request.ofJson_objects _ predictions

/-- What is answered to predictions that are read as queries. -/
theorem placeholders_queryOf (style : Style) (predictions : List Prediction) :
    Request.placeholders ⟨predictions.map (queryOf style)⟩ =
      predictions.map fun prediction => .placeholder (Json.respell style prediction.id) := by
  simp [Request.placeholders, Function.comp_def, idOrNull_queryOf]

theorem renderPredictions_congr {style : Style} {f : Prediction → Prediction}
    {predictions : List Prediction}
    (h : ∀ prediction ∈ predictions, Response.renderPrediction style (f prediction) =
      Response.renderPrediction style prediction) :
    Response.renderPredictions style (predictions.map f) =
      Response.renderPredictions style predictions := by
  induction predictions with
  | nil => rfl
  | cons prediction rest ih =>
      obtain ⟨hprediction, hrest⟩ := List.forall_mem_cons.mp h
      have htail := ih hrest
      cases rest with
      | nil => exact hprediction
      | cons next rest =>
          simp only [List.map_cons, Response.renderPredictions] at htail ⊢
          rw [hprediction, htail]

/-- A placeholder whose identifier is spelled anew has the same text. -/
theorem renderPrediction_respell {style : Style} {id : Json}
    (h : Json.EveryNumber (Json.Settled style) id) :
    Response.renderPrediction style (.placeholder (Json.respell style id)) =
      Response.renderPrediction style (.placeholder id) := by
  simp only [Response.renderPrediction, Prediction.placeholder, Json.render_respell h]

/-- A run on the text of placeholders, read as queries, answers with that text as a response. -/
theorem run_renderUnder_queries (model : Model) {style : Style} {request : Request}
    (h : ∀ prediction ∈ request.placeholders, prediction.Writable style) :
    run ⟨.constant, model, style⟩
        (Utf8.encode (Response.renderUnder style Request.queriesKey request.placeholders)) =
      .ok (Response.renderUnder style Response.predictionsKey request.placeholders) := by
  have hdecode := Request.decode_of_parse
    (Response.parse_renderUnder Request.queriesKey_ne_numeralKey h)
  rw [ofJson_treeUnder] at hdecode
  refine run_constant_eq_ok_iff.mpr ⟨_, hdecode, ?_⟩
  rw [placeholders_queryOf]
  have hplain : ∀ prediction ∈ request.placeholders.map fun prediction =>
      Prediction.placeholder (Json.respell style prediction.id), Plain prediction.id := by
    intro prediction hprediction
    obtain ⟨old, hold, rfl⟩ := List.mem_map.mp hprediction
    have hwritable := h old hold
    exact hwritable.plain.respell (hwritable.plain.writable hwritable.spaceable)
  have htext : Response.renderPredictions style (request.placeholders.map fun prediction =>
      .placeholder (Json.respell style prediction.id)) =
        Response.renderPredictions style request.placeholders := by
    apply renderPredictions_congr
    intro prediction hprediction
    have hwritable := h prediction hprediction
    obtain ⟨query, -, rfl⟩ := List.mem_map.mp hprediction
    exact renderPrediction_respell (hwritable.plain.settled hwritable.spaceable)
  rw [Response.encode_eq_render hplain, Response.render_eq, Response.renderUnder, htext,
    Response.renderUnder]

/-- A response that is given back as a request, its one key replaced, is answered with itself.  In
the spaced style this needs that no identifier holds a literal whose value is infinite. -/
theorem run_again (model : Model) (style : Style) (input : List UInt8) (out : Text)
    (hrun : run ⟨.constant, model, style⟩ input = .ok out)
    (hfinite : style = .spaced → ∀ request, Request.decode input = .ok request →
      ∀ query ∈ request.queries, Json.EveryNumber Json.FiniteLiteral query.idOrNull) :
    ∃ rest, out = "\x7b\"predictions\"".toList ++ rest ∧
      run ⟨.constant, model, style⟩ (Utf8.encode ("\x7b\"queries\"".toList ++ rest)) =
        .ok out := by
  obtain ⟨request, hdecode, hencode⟩ := run_constant_eq_ok_iff.mp hrun
  have hwritable := writable_placeholders hdecode fun query hquery hstyle =>
    hfinite hstyle request hdecode query hquery
  have hout : out = Response.renderUnder style Response.predictionsKey request.placeholders :=
    render_of_encode hencode
  refine ⟨behindKey style request.placeholders, ?_, ?_⟩
  · rw [hout, renderUnder_predictions]
  · rw [hout, ← renderUnder_queries]
    exact run_renderUnder_queries model hwritable

/-- One query whose identifier is spelled anew in the spaced style. -/
theorem run_again_one :
    let input := "\x7b\"queries\": [\x7b\"id\": 1.50\x7d]\x7d".toList.map Text.ascii
    let out := ("\x7b\"predictions\": " ++
      "[\x7b\"id\": 1.5, \"type\": \"any\", \"score\": 0.0\x7d]\x7d").toList
    run ⟨.constant, ⟨none⟩, .spaced⟩ input = .ok out ∧
      ∃ rest, out = "\x7b\"predictions\"".toList ++ rest ∧
        run ⟨.constant, ⟨none⟩, .spaced⟩ (Utf8.encode ("\x7b\"queries\"".toList ++ rest)) =
          .ok out := by
  intro input out
  have hrun : run ⟨.constant, ⟨none⟩, .spaced⟩ input = .ok out :=
    eq_ok_of_toOption (by decide +kernel)
  have hdecode : Request.decode input = .ok ⟨[.withId (.number ['1', '.', '5', '0'])]⟩ := rfl
  have hvalue : Binary64.readLiteral? ['1', '.', '5', '0'] =
      some (.ofBits 0x3FF8000000000000) := by decide +kernel
  have hliteral := Json.finiteLiteral_of_readLiteral? hvalue (by decide +kernel)
  refine ⟨hrun, run_again ⟨none⟩ .spaced input out hrun ?_⟩
  intro _ request hrequest
  rw [hdecode] at hrequest
  cases hrequest
  exact List.forall_mem_cons.mpr ⟨.number hliteral, List.forall_mem_nil _⟩

end Engine

end QueryLabel
