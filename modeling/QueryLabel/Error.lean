import QueryLabel.Json.Basic
import QueryLabel.Json.SyntaxError

/-!
What can go wrong in one run: the request, the configuration, the model, the streams and the
response each have their errors.  Every error has a message, a code and an exit status.
-/

namespace QueryLabel

/-- The request document could not be turned into queries. -/
inductive InputError
  | parse (message : String) (position : Position)
  | notAnObject (found : Json.Kind)
  | queriesNotArray (found : Json.Kind)
  | queryNotObject (index : Nat) (found : Json.Kind)
deriving Repr, DecidableEq

/-- The configuration cannot be used.  A file that is not even well-formed has no message of its
own. -/
inductive ConfigError
  | fileNotFound (path : String)
  | readFailed (path : String) (message : String)
  | parseError (path : String) (message : Option String)
  | validationFailed (field : String) (message : String)
  | unknownPredictor (kind : String)
  | invalidValue (field : String) (message : String)
deriving Repr, DecidableEq

/-- The model or the predictor failed. -/
inductive ModelError
  | loadFailed (path : String) (reason : String)
  | batchLengthMismatch (predictor : String) (expected actual : Nat)
deriving Repr, DecidableEq

/-- Any error of a run. -/
inductive PredictError
  | input (e : InputError)
  | config (e : ConfigError)
  | model (e : ModelError)
  | io (context : String) (source : String)
  | encode (message : String)
deriving Repr, DecidableEq

/-- Why a computation stops without a result: an error that is reported, or a crash. -/
inductive Stop (ε : Type)
  | failed (e : ε)
  | crashed
deriving Repr, DecidableEq

/-- The stable codes of errors. -/
inductive ErrorCode
  | input
  | config
  | model
  | io
  | encode
deriving Repr, DecidableEq

/-- The word for a code. -/
def ErrorCode.name : ErrorCode → String
  | input => "INPUT_ERROR"
  | config => "CONFIG_ERROR"
  | model => "MODEL_ERROR"
  | io => "IO_ERROR"
  | encode => "ENCODE_ERROR"

/-- The exit status of a run that fails with this code: a configuration that cannot be used counts
as wrong usage. -/
def ErrorCode.exitStatus : ErrorCode → Nat
  | config => 2
  | input | model | io | encode => 1

/-- The line that reports an error with this code. -/
def ErrorCode.diagnostic (code : ErrorCode) (message : String) : String :=
  "error[" ++ code.name ++ "]: " ++ message

namespace InputError

/-- The error for a document that is no JSON. -/
def ofSyntax (e : Json.SyntaxError) : InputError :=
  .parse e.message e.position

/-- The message of an input error. -/
def message : InputError → String
  | parse message position =>
      s!"Invalid JSON at line {position.line}, column {position.column}: {message}"
  | notAnObject found => s!"Request must be a JSON object, found {found.name}"
  | queriesNotArray found => s!"`queries` must be an array, found {found.name}"
  | queryNotObject index found => s!"queries[{index}] must be an object, found {found.name}"

end InputError

namespace ConfigError

/-- The message of a configuration error. -/
def message : ConfigError → String
  | fileNotFound path => s!"Config file not found: {path}"
  | readFailed path message => s!"Config file could not be read: {path}: {message}"
  | parseError path message => s!"Config parse error in {path}: " ++ message.getD ""
  | validationFailed field message => s!"Config validation failed for {field}: {message}"
  | unknownPredictor kind => s!"Unknown predictor kind: {kind}"
  | invalidValue field message => s!"Invalid config value for {field}: {message}"

end ConfigError

namespace ModelError

/-- The message of a model error. -/
def message : ModelError → String
  | loadFailed path reason => s!"model load failed: {path}: {reason}"
  | batchLengthMismatch predictor expected actual =>
      s!"predictor {predictor} returned {actual} predictions for {expected} queries"

end ModelError

namespace PredictError

/-- The message of an error: it names the part of the run that failed. -/
def message : PredictError → String
  | input e => "Input error: " ++ e.message
  | config e => "Configuration error: " ++ e.message
  | model e => "Model error: " ++ e.message
  | io context source => s!"I/O error while {context}: {source}"
  | encode message => s!"Failed to encode response: {message}"

/-- The code of an error. -/
def code : PredictError → ErrorCode
  | input _ => .input
  | config _ => .config
  | model _ => .model
  | io _ _ => .io
  | encode _ => .encode

/-- The exit status of a run that ends with an error. -/
def exitStatus (e : PredictError) : Nat :=
  e.code.exitStatus

/-- The line that reports an error. -/
def diagnostic (e : PredictError) : String :=
  e.code.diagnostic e.message

end PredictError

end QueryLabel
