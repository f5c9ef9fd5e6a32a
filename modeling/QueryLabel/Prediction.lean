import QueryLabel.Binary64.Basic
import QueryLabel.Json.Basic

/-!
Predictions, and the response that carries one for each query.
-/

namespace QueryLabel

/-- The label and the score of one query, with its identifier. -/
structure Prediction where
  id : Json
  label : Text
  score : Binary64

namespace Prediction

/-- The label that is given when nothing is known about a query. -/
def placeholderLabel : Text := "any".toList

/-- The score that goes with that label. -/
def placeholderScore : Binary64 := .zero false

/-- The prediction that is made when nothing is known about a query. -/
def placeholder (id : Json) : Prediction := ⟨id, placeholderLabel, placeholderScore⟩

end Prediction

/-- A response: one prediction per query, in order. -/
structure Response where
  predictions : List Prediction

end QueryLabel
