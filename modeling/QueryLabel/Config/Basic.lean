import QueryLabel.Error
import QueryLabel.Predictor
import QueryLabel.Style

/-!
The settings of a run.
-/

namespace QueryLabel

/-- The settings of a run: which predictor it uses, where the model of the predictor is, the style
of its output, and what it logs. -/
structure Config where
  kind : String := Predictor.constantName
  modelPath : Option String := none
  style : Style := .spaced
  logLevel : String := "warn"
deriving Repr, DecidableEq

namespace Config

/-- The settings of a run that is told nothing. -/
def default : Config := {}

/-- The style that a text names; other texts are refused in the form in which they were compared. -/
def readStyle (text : Text) : Except ConfigError Style :=
  match Style.parse? text with
  | some style => .ok style
  | none =>
      .error (.invalidValue "output.style"
        ("expected \"python\" or \"compact\", got \"" ++
          String.ofList (Style.canonicalName text) ++ "\""))

end Config

end QueryLabel
