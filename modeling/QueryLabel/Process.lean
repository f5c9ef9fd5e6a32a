import QueryLabel.CommandLine
import QueryLabel.Log

/-!
One run of the program: from its command line, its environment, its files and its input to what it
prints and how it ends.
-/

namespace QueryLabel

/-- What a run leaves behind: its exit status, what it printed, the lines of its log, and the
message about what went wrong.  A command line that is refused has a message of its own kind. -/
structure Outcome where
  status : Nat
  output : List UInt8 := []
  log : List String := []
  usage : Option String := none
  diagnostic : Option String := none
deriving Repr, DecidableEq

/-- How a run ends: it exits, or it crashes. -/
inductive Ending
  | exited (outcome : Outcome)
  | crashed
deriving Repr, DecidableEq

/-- Everything that a run can look at. -/
structure Surroundings where
  words : List String
  environment : Option String
  files : FileSystem
  input : Source

namespace Outcome

/-- A run that ends with an error. -/
def failing (table : Filter.Table) (before : List Event) (e : PredictError) : Outcome :=
  { status := e.exitStatus
    log := Event.lines table (before ++ [.failed e.code])
    diagnostic := some e.diagnostic }

end Outcome

/-- The filter for the log of a run. -/
def Config.table (config : Config) : Filter.Table :=
  match Config.parseFilter config.logLevel with
  | .ok directives => .ofDirectives directives
  | .error _ => .ofDirectives []

/-- Run an engine between its input and an output that takes everything. -/
def Engine.outcome (engine : Engine) (table : Filter.Table) (input : Source) : Outcome :=
  let before := engine.model.events ++ [.ready engine.predictor.name engine.style] ++
    input.decodeEvents
  let transfer := engine.transfer input {}
  match transfer.result with
  | .error e => .failing table before e
  | .ok (bytesIn, bytesOut) =>
      { status := 0
        output := transfer.sink.written
        log := Event.lines table (before ++ [.finished bytesIn bytesOut]) }

/-- Run with settings that are checked. -/
def Config.outcome (config : Config) (files : FileSystem) (input : Source) : Outcome :=
  match Engine.ofConfig files config with
  | .error e => .failing config.table [] e
  | .ok engine => engine.outcome config.table input

/-- The filter of a run whose settings cannot be used. -/
def quietTable : Filter.Table :=
  Config.default.table

namespace CommandSettings

/-- The settings of a run, from all layers. -/
def resolve (settings : CommandSettings) (files : FileSystem) (environment : Option String) :
    Except (Stop ConfigError) Config :=
  Config.resolve files settings.config environment ⟨settings.style, settings.logLevel⟩

/-- Whether a run comes so far that it reads its input. -/
def isReady (settings : CommandSettings) (environment : Option String) (files : FileSystem) :
    Bool :=
  match settings.resolve files environment with
  | .ok config => (Engine.ofConfig files config).toBool
  | .error _ => false

/-- Run a command with its settings. -/
def ending (settings : CommandSettings) (environment : Option String) (files : FileSystem)
    (input : Source) : Ending :=
  match settings.resolve files environment with
  | .ok config => .exited (config.outcome files input)
  | .error (.failed e) => .exited (.failing quietTable [] (.config e))
  | .error .crashed => .crashed

end CommandSettings

/-- One run of the program. -/
def Surroundings.run (s : Surroundings) : Ending :=
  match Command.parse s.words with
  | .error e => .exited { status := ErrorCode.config.exitStatus, usage := some e.message }
  | .ok (.inform flag) =>
      .exited { status := 0, output := Utf8.encode (Command.flagText flag).toList }
  | .ok (.run settings) => settings.ending s.environment s.files s.input

end QueryLabel
