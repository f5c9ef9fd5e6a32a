import QueryLabel.Process

/-!
The program itself: it looks at what is around it, and prints what a run leaves behind.
-/

namespace QueryLabel.Program

/-- A failure and its number, which counts without its sign. -/
def numbered (details : String) (code : UInt32) : String :=
  details.capitalize ++ " (os error " ++ toString code.toInt32.toInt.natAbs ++ ")"

/-- What the operating system says about a failure. -/
def reason : IO.Error → String
  | .alreadyExists _ code details
  | .otherError code details
  | .resourceBusy code details
  | .resourceVanished code details
  | .unsupportedOperation code details
  | .hardwareFault code details
  | .unsatisfiedConstraints code details
  | .illegalOperation code details
  | .protocolError code details
  | .timeExpired code details
  | .interrupted _ code details
  | .noFileOrDirectory _ code details
  | .invalidArgument _ code details
  | .permissionDenied _ code details
  | .resourceExhausted _ code details
  | .inappropriateType _ code details
  | .noSuchThing _ code details => numbered details code
  | .unexpectedEof => "unexpected end of file"
  | .userError details => details

/-- Read the file at a path. -/
def readText (path : String) : IO (Except FileSystem.ReadError Text) := do
  try
    return FileSystem.decodeText (← IO.FS.readBinFile path).toList
  catch
    | .noFileOrDirectory _ _ _ => return .error .notFound
    | e => return .error (.other (reason e))

/-- Whether a path leads anywhere. -/
def pathExists (path : String) : IO Bool := do
  try
    let _ ← IO.FS.realPath path
    return true
  catch _ => return false

/-- Read the standard input to its end. -/
def readInput : IO Source := do
  try
    return .ofBytes (← (← IO.getStdin).readBinToEnd).toList
  catch e => return .broken (reason e)

/-- Look at the files that some settings name, and at nothing else. -/
def lookUp (settings : CommandSettings) (environment : Option String) : IO FileSystem := do
  let text ←
    match settings.config with
    | some path => readText path
    | none => pure (.error .notFound)
  match settings.resolve (.unseen text) environment with
  | .error _ => return .unseen text
  | .ok config =>
      let found ← config.modelPath.elim (pure false) pathExists
      return ⟨fun _ => text, fun _ => found⟩

/-- Look at what is around a run.  The input is read only by a run that comes so far. -/
def surroundings (words : List String) : IO Surroundings := do
  let environment ← IO.getEnv Config.logVariable
  match Command.parse words with
  | .ok (.run settings) =>
      let files ← lookUp settings environment
      let input ← if settings.isReady environment files then readInput else pure (.ofBytes [])
      return ⟨words, environment, files, input⟩
  | _ => return ⟨words, environment, .unseen (.error .notFound), .ofBytes []⟩

/-- Print what a run leaves behind: its output, and then its log and what went wrong. -/
def print (outcome : Outcome) : IO Unit := do
  let output ← IO.getStdout
  output.write ⟨outcome.output.toArray⟩
  output.flush
  for line in outcome.log ++ outcome.usage.toList ++ outcome.diagnostic.toList do
    IO.eprintln line

/-- Print what a run leaves behind, and end as it does. -/
def finish : Ending → IO UInt32
  | .crashed => return 101
  | .exited outcome => do
      try
        print outcome
        return outcome.status.toUInt32
      catch e =>
        let failure : PredictError := .io Engine.writingOutput (reason e)
        IO.eprintln failure.diagnostic
        return failure.exitStatus.toUInt32

end QueryLabel.Program

/-- Run the program. -/
def main (words : List String) : IO UInt32 := do
  QueryLabel.Program.finish (← QueryLabel.Program.surroundings words).run
