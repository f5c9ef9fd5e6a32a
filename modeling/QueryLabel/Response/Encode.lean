import QueryLabel.Error
import QueryLabel.Json.Printer
import QueryLabel.Prediction

/-!
Writing responses in either style.
-/

namespace QueryLabel.Response

/-- The key of the predictions. -/
def predictionsKey : Text := "predictions".toList

/-- A key of a response document with the value behind it. -/
def renderField (style : Style) (key : String) (value : Text) : Text :=
  Json.renderString style key.toList ++ style.keySeparator ++ value

/-- A score in a style.  What is not finite has no spelling in a document and is a null. -/
def renderScore (style : Style) (score : Binary64) : Text :=
  if score.isFinite then style.layout.write score else Json.render style .null

/-- A prediction in a style: its identifier, its label and its score. -/
def renderPrediction (style : Style) (prediction : Prediction) : Text :=
  '{' :: renderField style "id" (Json.render style prediction.id) ++ style.itemSeparator ++
    renderField style "type" (Json.renderString style prediction.label) ++
    style.itemSeparator ++ renderField style "score" (renderScore style prediction.score) ++ ['}']

/-- Predictions with separators between them. -/
def renderPredictions (style : Style) : List Prediction → Text
  | [] => []
  | [prediction] => renderPrediction style prediction
  | prediction :: next :: rest =>
      renderPrediction style prediction ++ style.itemSeparator ++
        renderPredictions style (next :: rest)

/-- The text of a response in a style. -/
def render (style : Style) (response : Response) : Text :=
  '{' :: Json.renderString style predictionsKey ++ style.keySeparator ++
    '[' :: renderPredictions style response.predictions ++ [']', '}']

/-- Every identifier can be spelled in a style. -/
def spellable (style : Style) (response : Response) : Bool :=
  response.predictions.all fun prediction => Json.spellable style prediction.id

/-- The text of a response in a style.  It fails exactly when an identifier holds a number literal
that cannot be spelled. -/
def encode (style : Style) (response : Response) : Except PredictError Text :=
  if response.spellable style then .ok (response.render style)
  else .error (.encode "invalid float literal")

end QueryLabel.Response
