import QueryLabel.Predictor
import QueryLabel.Text.Utf8

/-!
The engine: a request is decoded, its queries are predicted, and the response is encoded.
-/

namespace QueryLabel

/-- The model that a predictor is given: where it comes from, if it has a place. -/
structure Model where
  source : Option String
deriving Repr, DecidableEq

/-- Everything that one run needs. -/
structure Engine where
  predictor : Predictor
  model : Model
  style : Style

namespace Engine

/-- Predict the queries of a request.  A batch with more or fewer predictions than queries is
refused. -/
def predict (engine : Engine) (request : Request) : Except PredictError Response := do
  let predictions ← engine.predictor.predictBatch request.queries
  if predictions.length = request.queries.length then .ok ⟨predictions⟩
  else
    .error (.model (.batchLengthMismatch engine.predictor.name request.queries.length
      predictions.length))

/-- Decode a request document. -/
def decode (input : List UInt8) : Except PredictError Request :=
  (Request.decode input).mapError .input

/-- The response text for a request document. -/
def run (engine : Engine) (input : List UInt8) : Except PredictError Text := do
  let request ← decode input
  let response ← engine.predict request
  response.encode engine.style

end Engine

end QueryLabel
