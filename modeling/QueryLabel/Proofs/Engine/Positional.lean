import Mathlib.Data.List.Forall2
import QueryLabel.Engine
import QueryLabel.Proofs.Request

/-!
Predictions answer queries by their place (`predict_positional`).  A predictor that answers each
query on its own gives every query its prediction, or fails with the first query that fails.
Whatever another predictor makes of a batch, an engine lets no batch of a wrong length through.
-/

namespace QueryLabel

namespace Predictor

/-- What becomes of queries that are answered one after the other. -/
inductive OneByOne (answer : Query → Except PredictError Prediction) :
    List Query → Except PredictError (List Prediction) → Prop
  /-- Every query has its own prediction, in its own place. -/
  | answered {queries : List Query} {predictions : List Prediction}
      (h : List.Forall₂ (fun query prediction => answer query = .ok prediction) queries
        predictions) : OneByOne answer queries (.ok predictions)
  /-- The first query that fails tells how. -/
  | failed {before after : List Query} {query : Query} {e : PredictError}
      (hbefore : ∀ earlier ∈ before, ∃ prediction, answer earlier = .ok prediction)
      (h : answer query = .error e) : OneByOne answer (before ++ query :: after) (.error e)

section EachQuery

variable {answer : Query → Except PredictError Prediction} {queries : List Query} {query : Query}

theorem eachQuery_of_ok {prediction : Prediction} (h : answer query = .ok prediction)
    (rest : List Query) :
    eachQuery answer (query :: rest) = (eachQuery answer rest).map (prediction :: ·) := by
  simp only [eachQuery, h, bind, Except.bind]
  cases eachQuery answer rest <;> rfl

theorem eachQuery_of_error {e : PredictError} (h : answer query = .error e)
    (rest : List Query) : eachQuery answer (query :: rest) = .error e := by
  simp only [eachQuery, h, bind, Except.bind]

/-- A query that is answered does not change what becomes of those behind it. -/
theorem OneByOne.cons {prediction : Prediction} {rest : List Query}
    {outcome : Except PredictError (List Prediction)} (h : answer query = .ok prediction)
    (hrest : OneByOne answer rest outcome) :
    OneByOne answer (query :: rest) (outcome.map (prediction :: ·)) := by
  cases hrest with
  | answered hall => exact .answered (.cons h hall)
  | failed hbefore hfails =>
      rw [← List.cons_append]
      exact .failed (List.forall_mem_cons.mpr ⟨⟨prediction, h⟩, hbefore⟩) hfails

theorem oneByOne_eachQuery (answer : Query → Except PredictError Prediction)
    (queries : List Query) : OneByOne answer queries (eachQuery answer queries) := by
  induction queries with
  | nil => exact .answered .nil
  | cons query rest ih =>
      cases h : answer query with
      | ok prediction =>
          rw [eachQuery_of_ok h]
          exact ih.cons h
      | error e =>
          rw [eachQuery_of_error h]
          exact @OneByOne.failed answer [] rest query e (List.forall_mem_nil _) h

/-- All queries are answered exactly if each of them is. -/
theorem eachQuery_isOk_iff :
    (∃ predictions, eachQuery answer queries = .ok predictions) ↔
      ∀ query ∈ queries, ∃ prediction, answer query = .ok prediction := by
  induction queries with
  | nil => exact iff_of_true ⟨[], rfl⟩ (List.forall_mem_nil _)
  | cons query rest ih =>
      rw [List.forall_mem_cons, ← ih]
      cases h : answer query with
      | ok prediction =>
          simp [eachQuery_of_ok h, map_eq_ok_iff]
      | error e =>
          rw [eachQuery_of_error h]
          simp

/-- An error of all queries is the error of one. -/
theorem OneByOne.exists_of_error {e : PredictError} (h : OneByOne answer queries (.error e)) :
    ∃ query ∈ queries, answer query = .error e := by
  cases h with
  | failed hbefore hfails =>
      exact ⟨_, List.mem_append_right _ List.mem_cons_self, hfails⟩

theorem eachQuery_append (answer : Query → Except PredictError Prediction)
    (queries more : List Query) :
    eachQuery answer (queries ++ more) = (do
      let predictions ← eachQuery answer queries
      let others ← eachQuery answer more
      .ok (predictions ++ others)) := by
  induction queries with
  | nil =>
      simp only [List.nil_append, eachQuery, bind, Except.bind]
      cases eachQuery answer more <;> rfl
  | cons query rest ih =>
      rw [List.cons_append]
      cases h : answer query with
      | error e => simp only [eachQuery_of_error h, bind, Except.bind]
      | ok prediction =>
          simp only [eachQuery_of_ok h, ih, bind, Except.bind]
          cases eachQuery answer rest with
          | error e => rfl
          | ok predictions => cases eachQuery answer more <;> rfl

end EachQuery

end Predictor

namespace Engine

open Predictor (OneByOne eachQuery)

section Predict

variable {engine : Engine} {request : Request}

theorem predict_of_error {e : PredictError}
    (h : engine.predictor.predictBatch request.queries = .error e) :
    engine.predict request = .error e := by
  simp only [predict, h, bind, Except.bind]

theorem predict_of_ok {predictions : List Prediction}
    (h : engine.predictor.predictBatch request.queries = .ok predictions) :
    engine.predict request =
      if predictions.length = request.queries.length then .ok ⟨predictions⟩
      else .error (.model (.batchLengthMismatch engine.predictor.name request.queries.length
        predictions.length)) := by
  simp only [predict, h, bind, Except.bind]

theorem length_of_predict {response : Response} (h : engine.predict request = .ok response) :
    response.predictions.length = request.queries.length := by
  cases hbatch : engine.predictor.predictBatch request.queries with
  | error e =>
      rw [predict_of_error hbatch] at h
      cases h
  | ok predictions =>
      rw [predict_of_ok hbatch] at h
      split at h
      · next hlength =>
          cases h
          exact hlength
      · cases h

/-- Of a predictor that answers each query on its own every batch passes. -/
theorem predict_ofQuery (engine : Engine) (name : String)
    (answer : Query → Except PredictError Prediction) (request : Request) :
    predict { engine with predictor := .ofQuery name answer } request =
      (eachQuery answer request.queries).map Response.mk := by
  cases hbatch : eachQuery answer request.queries with
  | error e => exact predict_of_error hbatch
  | ok predictions =>
      refine (predict_of_ok hbatch).trans ?_
      rw [if_pos (Predictor.length_eachQuery hbatch)]
      rfl

end Predict

section Run

variable {engine : Engine} {input : List UInt8} {request : Request}

theorem run_of_decode_error {e : InputError} (h : Request.decode input = .error e) :
    engine.run input = .error (.input e) := by
  rw [run, decode, h]
  rfl

theorem run_of_decode (h : Request.decode input = .ok request) :
    engine.run input = (do
      let response ← engine.predict request
      response.encode engine.style) := by
  rw [run, decode, h]
  rfl

theorem run_of_predict_error {e : PredictError} (h : Request.decode input = .ok request)
    (hpredict : engine.predict request = .error e) : engine.run input = .error e := by
  rw [run_of_decode h, hpredict]
  rfl

/-- A run succeeds if every part of it does. -/
theorem run_eq_ok_iff {out : Text} :
    engine.run input = .ok out ↔
      ∃ request response, Request.decode input = .ok request ∧
        engine.predict request = .ok response ∧ response.encode engine.style = .ok out := by
  cases hdecode : Request.decode input with
  | error e => simp [run_of_decode_error hdecode]
  | ok request =>
      rw [run_of_decode hdecode]
      cases hpredict : engine.predict request <;> simp [bind, Except.bind, hpredict]

end Run

/-- How an engine treats the batches of its predictor: a batch that failed comes first, then one
that has not one prediction per query, and any other is the response as it is.  No response of
another length is made, and none is encoded. -/
structure LengthChecked (engine : Engine) : Prop where
  failed : ∀ request e, engine.predictor.predictBatch request.queries = .error e →
    engine.predict request = .error e
  mismatch : ∀ request predictions,
    engine.predictor.predictBatch request.queries = .ok predictions →
    predictions.length ≠ request.queries.length →
      engine.predict request = .error (.model (.batchLengthMismatch engine.predictor.name
        request.queries.length predictions.length))
  unchanged : ∀ request predictions,
    engine.predictor.predictBatch request.queries = .ok predictions →
    predictions.length = request.queries.length → engine.predict request = .ok ⟨predictions⟩
  length : ∀ request response, engine.predict request = .ok response →
    response.predictions.length = request.queries.length
  refuses : ∀ input request e, Request.decode input = .ok request →
    engine.predict request = .error e → engine.run input = .error e
  encodes : ∀ input out, engine.run input = .ok out →
    ∃ request response, Request.decode input = .ok request ∧
      engine.predict request = .ok response ∧
      response.predictions.length = request.queries.length ∧
      response.encode engine.style = .ok out

theorem lengthChecked (engine : Engine) : engine.LengthChecked where
  failed := fun _ _ h => predict_of_error h
  mismatch := fun _ _ h hlength => by rw [predict_of_ok h, if_neg hlength]
  unchanged := fun _ _ h hlength => by rw [predict_of_ok h, if_pos hlength]
  length := fun _ _ h => length_of_predict h
  refuses := fun _ _ _ h hpredict => run_of_predict_error h hpredict
  encodes := by
    intro input out h
    obtain ⟨request, response, hdecode, hpredict, hencode⟩ := run_eq_ok_iff.mp h
    exact ⟨request, response, hdecode, hpredict, length_of_predict hpredict, hencode⟩

/-- How an engine predicts whose predictor answers each query on its own.  A mismatch can only be
what a query itself was answered with: the engine finds none. -/
structure Positional (answer : Query → Except PredictError Prediction) (engine : Engine) :
    Prop where
  oneByOne : ∀ request,
    OneByOne answer request.queries ((engine.predict request).map Response.predictions)
  isOk_iff : ∀ request, (∃ response, engine.predict request = .ok response) ↔
    ∀ query ∈ request.queries, ∃ prediction, answer query = .ok prediction
  matched : ∀ request name expected actual,
    engine.predict request = .error (.model (.batchLengthMismatch name expected actual)) →
      ∃ query ∈ request.queries,
        answer query = .error (.model (.batchLengthMismatch name expected actual))
  append : ∀ queries more, engine.predict ⟨queries ++ more⟩ = do
    let response ← engine.predict ⟨queries⟩
    let other ← engine.predict ⟨more⟩
    .ok ⟨response.predictions ++ other.predictions⟩

theorem positional_ofQuery (engine : Engine) (name : String)
    (answer : Query → Except PredictError Prediction) :
    Positional answer { engine with predictor := .ofQuery name answer } where
  oneByOne := by
    intro request
    rw [predict_ofQuery]
    have h := Predictor.oneByOne_eachQuery answer request.queries
    cases hbatch : eachQuery answer request.queries <;> rwa [hbatch] at h
  isOk_iff := by
    intro request
    rw [predict_ofQuery, ← Predictor.eachQuery_isOk_iff]
    simp [map_eq_ok_iff]
  matched := by
    intro request name' expected actual hpredict
    rw [predict_ofQuery, map_eq_error_iff] at hpredict
    have h := Predictor.oneByOne_eachQuery answer request.queries
    rw [hpredict] at h
    exact h.exists_of_error
  append := by
    intro queries more
    simp only [predict_ofQuery, Predictor.eachQuery_append, bind, Except.bind]
    cases eachQuery answer queries with
    | error e => rfl
    | ok predictions => cases eachQuery answer more <;> rfl

/-- Every engine checks the length of a batch, and with a predictor that answers each query on its
own it never has to refuse one: it answers by place, or fails with the first query that fails. -/
theorem predict_positional (engine : Engine) (name : String)
    (answer : Query → Except PredictError Prediction) :
    engine.LengthChecked ∧
      Positional answer { engine with predictor := .ofQuery name answer } :=
  ⟨lengthChecked engine, positional_ofQuery engine name answer⟩

/-- A batch that lost a prediction is refused with both lengths. -/
example : predict ⟨⟨"short", fun queries => (Predictor.constant.predictBatch queries).map List.tail⟩,
      ⟨none⟩, .compact⟩ ⟨[.anonymous, .withId .null]⟩ =
    .error (.model (.batchLengthMismatch "short" 2 1)) := rfl

end Engine

end QueryLabel
