import QueryLabel.Config.Shape
import QueryLabel.Engine
import QueryLabel.FileSystem
import QueryLabel.Filter.Verdict

/-!
Settings from several layers.  A file comes over the defaults, the environment over the file, and
the command line over both; only the result is validated.
-/

namespace QueryLabel.Config

/-- The name of the environment variable with a filter for the log. -/
def logVariable : String := "QUERYTYPE_LOG"

/-- The name that stands for a document without a file. -/
def unnamedDocument : String := "<string>"

/-- What the command line says about the settings. -/
structure Overrides where
  style : Option Style := none
  logLevel : Option String := none
deriving Repr, DecidableEq

/-- A filter for the log, from its text. -/
def parseFilter (text : String) : Except (Stop Filter.Problem) (List Filter.Directive) :=
  Filter.parse text.toList

/-- Take over the filter of the environment, if there is one that is not blank and can be read. -/
def withEnvironment (config : Config) (environment : Option String) :
    Except (Stop ConfigError) Config :=
  match environment with
  | none => .ok config
  | some text =>
      if Text.allBlank text.toList then .ok config
      else
        match parseFilter text with
        | .ok _ => .ok { config with logLevel := text }
        | .error (.failed _) => .ok config
        | .error .crashed => .error .crashed

/-- Take over what the command line says. -/
def withOverrides (config : Config) (overrides : Overrides) : Config :=
  { config with
    style := overrides.style.getD config.style
    logLevel := overrides.logLevel.getD config.logLevel }

/-- Check settings: the predictor is known, the path of the model is not blank, and the filter of
the log can be read. -/
def validate (config : Config) : Except (Stop ConfigError) Unit :=
  if ¬ Predictor.knownNames.contains config.kind then
    .error (.failed (.unknownPredictor config.kind))
  else if config.modelPath.any fun path => Text.allBlank path.toList then
    .error (.failed (.validationFailed "predictor.model_path" "must not be empty"))
  else
    match parseFilter config.logLevel with
    | .ok _ => .ok ()
    | .error (.failed problem) =>
        .error (.failed (.validationFailed "observability.log_level"
          ("invalid filter directives: " ++ problem.message)))
    | .error .crashed => .error .crashed

/-- Read the settings in a file, without checking them. -/
def readFile (files : FileSystem) (path : String) : Except ConfigError Config :=
  match files.readText path with
  | .ok document => ofToml path document
  | .error .notFound => .error (.fileNotFound path)
  | .error (.other message) => .error (.readFailed path message)

/-- Read the settings in a file, and check them. -/
def load (files : FileSystem) (path : String) : Except (Stop ConfigError) Config := do
  let config ← (readFile files path).mapError .failed
  validate config
  .ok config

/-- The settings from all layers, checked. -/
def resolve (files : FileSystem) (path : Option String) (environment : Option String)
    (overrides : Overrides) : Except (Stop ConfigError) Config := do
  let base ←
    match path with
    | some path => (readFile files path).mapError .failed
    | none => .ok default
  let config ← base.withEnvironment environment
  let config := config.withOverrides overrides
  validate config
  .ok config

/-- The model of some settings.  Its path has to lead somewhere, but it is not read. -/
def loadModel (config : Config) (files : FileSystem) : Except ModelError Model :=
  match config.modelPath with
  | none => .ok ⟨none⟩
  | some path =>
      if files.pathExists path then .ok ⟨some path⟩
      else .error (.loadFailed path "file does not exist")

/-- The predictor of some settings. -/
def buildPredictor (config : Config) : Except ConfigError Predictor :=
  match Predictor.ofName? config.kind with
  | some predictor => .ok predictor
  | none => .error (.unknownPredictor config.kind)

end QueryLabel.Config

namespace QueryLabel

/-- The engine that some settings describe.  The model is looked for first. -/
def Engine.ofConfig (files : FileSystem) (config : Config) : Except PredictError Engine := do
  let model ← (config.loadModel files).mapError .model
  let predictor ← config.buildPredictor.mapError .config
  .ok ⟨predictor, model, config.style⟩

end QueryLabel
