import QueryLabel.Response.Encode
import QueryLabel.Query

/-!
Predictors.  A predictor answers a batch of queries; most of them answer each query on its own.
-/

namespace QueryLabel

/-- Something that predicts labels for queries. -/
structure Predictor where
  name : String
  predictBatch : List Query → Except PredictError (List Prediction)

namespace Predictor

/-- Predict each query on its own, in order; the first failure is the failure of the batch. -/
def eachQuery (predict : Query → Except PredictError Prediction) :
    List Query → Except PredictError (List Prediction)
  | [] => .ok []
  | query :: rest => do
      let prediction ← predict query
      let predictions ← eachQuery predict rest
      .ok (prediction :: predictions)

/-- The predictor that answers each query on its own. -/
def ofQuery (name : String) (predict : Query → Except PredictError Prediction) : Predictor :=
  ⟨name, eachQuery predict⟩

/-- The name of the constant predictor. -/
def constantName : String := "constant"

/-- The predictor that gives every query the placeholder. -/
def constant : Predictor :=
  ofQuery constantName fun query => .ok (.placeholder query.idOrNull)

/-- The names of the predictors that can be asked for. -/
def knownNames : List String := [constantName]

/-- The predictor with this name. -/
def ofName? (name : String) : Option Predictor :=
  if name = constantName then some constant else none

theorem length_eachQuery {predict : Query → Except PredictError Prediction}
    {queries : List Query} {predictions : List Prediction}
    (h : eachQuery predict queries = .ok predictions) :
    predictions.length = queries.length := by
  induction queries generalizing predictions with
  | nil =>
      cases h
      rfl
  | cons query rest ih =>
      cases hhead : predict query with
      | error e => simp [eachQuery, hhead, bind, Except.bind] at h
      | ok prediction =>
          cases htail : eachQuery predict rest with
          | error e => simp [eachQuery, hhead, htail, bind, Except.bind] at h
          | ok others =>
              simp only [eachQuery, hhead, htail, bind, Except.bind, Except.ok.injEq] at h
              rw [← h, List.length_cons, List.length_cons, ih htail]

end Predictor

end QueryLabel
