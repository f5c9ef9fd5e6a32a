import QueryLabel.Text.Quoted

/-!
How a message names a value of the wrong type: what it is and, for scalars, which one.
-/

namespace QueryLabel

/-- A value that is not of the type that was wanted. -/
inductive Found
  | null
  | boolean (b : Bool)
  | integer (n : Int)
  | number
  | float (spelled : Text)
  | string (text : Text)
  | sequence
  | map
deriving Repr, DecidableEq

/-- The words for such a value: scalars are shown, in backquotes or as a quoted text. -/
def Found.description : Found → String
  | null => "null"
  | boolean true => "boolean `true`"
  | boolean false => "boolean `false`"
  | integer n => "integer `" ++ toString n ++ "`"
  | number => "number"
  | float spelled => "floating point `" ++ String.ofList spelled ++ "`"
  | string text => "string " ++ String.ofList (Text.quote text)
  | sequence => "sequence"
  | map => "map"

example : (Found.integer (-5)).description = "integer `-5`" := by decide

end QueryLabel
