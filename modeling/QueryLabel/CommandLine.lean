import QueryLabel.Config.Resolve
import QueryLabel.Text.Terminal

/-!
The command line.  Words are read from left to right; an option that waits for its value is looked
at when the next option or flag comes, or at the end, while a word that fits nowhere is reported at
once.
-/

namespace QueryLabel

/-- The options that take a value. -/
inductive CommandOption
  | config
  | style
  | logLevel
deriving Repr, DecidableEq

/-- The options that take none and end the run. -/
inductive CommandFlag
  | help
  | version
deriving Repr, DecidableEq

namespace CommandOption

/-- The name of an option behind its dashes. -/
def name : CommandOption → String
  | config => "config"
  | style => "style"
  | logLevel => "log-level"

/-- An option as messages show it, with a word for its value. -/
def usage : CommandOption → String
  | config => "--config <PATH>"
  | style => "--style <STYLE>"
  | logLevel => "--log-level <FILTER>"

/-- All options. -/
def all : List CommandOption := [config, style, logLevel]

end CommandOption

namespace CommandFlag

/-- The name of a flag behind two dashes. -/
def name : CommandFlag → String
  | help => "help"
  | version => "version"

/-- The letter of a flag behind one dash. -/
def letter : CommandFlag → Char
  | help => 'h'
  | version => 'V'

/-- All flags. -/
def all : List CommandFlag := [help, version]

end CommandFlag

/-- Why a command line is refused. -/
inductive UsageError
  | valueRequired (option : CommandOption)
  | usedTwice (option : CommandOption)
  | invalidValue (option : CommandOption) (value reason : String)
  | unexpectedArgument (word : String)
  | unexpectedValue (flag : CommandFlag) (value : String)
deriving Repr, DecidableEq

namespace UsageError

/-- The beginning of the advice behind a message. -/
def advice : String := "\n\nFor more information, try '"

/-- The message of a usage error in pieces, up to the word for help.  Between the pieces a terminal
would change its colours, and that ends what a piece leaves open. -/
def pieces : UsageError → List String
  | valueRequired option =>
      ["a value is required for '", option.usage, "' but none was supplied" ++ advice]
  | usedTwice option =>
      ["the argument '", option.usage, "' cannot be used multiple times" ++ advice]
  | invalidValue option value reason =>
      ["invalid value '", value, "' for '", option.usage, "': " ++ reason ++ advice]
  | unexpectedArgument word => ["unexpected argument '", word, "' found" ++ advice]
  | unexpectedValue flag value =>
      ["unexpected value '", value, "' for '", "--" ++ flag.name,
        "' found; no more were expected" ++ advice]

/-- The message of a usage error.  Of every piece there is what a terminal would show of it. -/
def message (e : UsageError) : String :=
  let shown := e.pieces.flatMap fun piece => Text.Terminal.visible piece.toList
  "error: " ++ String.ofList shown ++ "--" ++ CommandFlag.help.name ++ "'."

end UsageError

/-- What the options say. -/
structure CommandSettings where
  config : Option String := none
  style : Option Style := none
  logLevel : Option String := none
deriving Repr, DecidableEq

/-- What a command line asks for. -/
inductive Command
  | run (settings : CommandSettings)
  | inform (flag : CommandFlag)
deriving Repr, DecidableEq

namespace Command

/-- An option that was named, and its value if that was there too. -/
structure Pending where
  option : CommandOption
  value : Option String
deriving Repr, DecidableEq

/-- The options that are settled, and the one that is not. -/
structure Progress where
  settings : CommandSettings := {}
  pending : Option Pending := none
deriving Repr, DecidableEq

/-- What one word leads to: the line goes on, the words behind are no options, or a flag ends the
run. -/
inductive Step
  | more (progress : Progress)
  | escape (progress : Progress)
  | stop (flag : CommandFlag)

/-- Give an option its value.  Each option has one place, and a path is not empty. -/
def settle (settings : CommandSettings) (option : CommandOption) (value : String) :
    Except UsageError CommandSettings :=
  match option with
  | .config =>
      if settings.config.isSome then .error (.usedTwice option)
      else if value = "" then .error (.valueRequired option)
      else .ok { settings with config := some value }
  | .style =>
      if settings.style.isSome then .error (.usedTwice option)
      else
        match Config.readStyle value.toList with
        | .ok style => .ok { settings with style := some style }
        | .error e => .error (.invalidValue option value e.message)
  | .logLevel =>
      if settings.logLevel.isSome then .error (.usedTwice option)
      else .ok { settings with logLevel := some value }

/-- Settle the option that waits. -/
def Progress.settlePending (progress : Progress) : Except UsageError CommandSettings :=
  match progress.pending with
  | none => .ok progress.settings
  | some ⟨option, none⟩ => .error (.valueRequired option)
  | some ⟨option, some value⟩ => settle progress.settings option value

/-- A word with two dashes: its name, and the value behind an equals sign. -/
def splitLong (word : Text) : Text × Option Text :=
  match word.dropWhile (· ≠ '=') with
  | [] => (word, none)
  | _ :: value => (word.takeWhile (· ≠ '='), some value)

/-- Read a word with two dashes in front of `body`. -/
def stepLong (progress : Progress) (body : Text) : Except UsageError Step :=
  let (name, value) := splitLong body
  match CommandOption.all.find? (·.name.toList = name),
      CommandFlag.all.find? (·.name.toList = name), value with
  | some option, _, some value => do
      let settings ← progress.settlePending
      let settings ← settle settings option (String.ofList value)
      .ok (.more ⟨settings, none⟩)
  | some option, _, none => do
      let settings ← progress.settlePending
      .ok (.more ⟨settings, some ⟨option, none⟩⟩)
  | none, some flag, some value => .error (.unexpectedValue flag (String.ofList value))
  | none, some flag, none => do
      let _ ← progress.settlePending
      .ok (.stop flag)
  | none, none, _ => .error (.unexpectedArgument (String.ofList ('-' :: '-' :: name)))

/-- Read a word with one dash in front of a letter. -/
def stepShort (progress : Progress) (letter : Char) : Except UsageError Step :=
  match CommandFlag.all.find? (·.letter = letter) with
  | some flag => do
      let _ ← progress.settlePending
      .ok (.stop flag)
  | none => .error (.unexpectedArgument (String.ofList ['-', letter]))

/-- Read a word without dashes, or a dash alone: a value for the option that waits for one. -/
def stepWord (progress : Progress) (word : Text) : Except UsageError Step :=
  match progress.pending with
  | some ⟨option, none⟩ =>
      .ok (.more { progress with pending := some ⟨option, some (String.ofList word)⟩ })
  | _ => .error (.unexpectedArgument (String.ofList word))

/-- Read one word. -/
def step (progress : Progress) (word : Text) : Except UsageError Step :=
  match word with
  | ['-', '-'] => .ok (.escape progress)
  | '-' :: '-' :: body => stepLong progress body
  | '-' :: letter :: _ => stepShort progress letter
  | word => stepWord progress word

/-- The end of the line. -/
def finish (progress : Progress) : Except UsageError Command := do
  .ok (.run (← progress.settlePending))

/-- Read words up to the end of the line. -/
def parseWords (progress : Progress) : List String → Except UsageError Command
  | [] => finish progress
  | word :: rest => do
      match ← step progress word.toList with
      | .more progress => parseWords progress rest
      | .stop flag => .ok (.inform flag)
      | .escape progress =>
          match rest with
          | [] => finish progress
          | word :: _ => .error (.unexpectedArgument word)

/-- Read a command line. -/
def parse (words : List String) : Except UsageError Command :=
  parseWords {} words

/-- The version of the program. -/
def version : String := "0.1.0"

/-- What is printed for a flag. -/
def flagText : CommandFlag → String
  | .version => "querytype " ++ version ++ "\n"
  | .help =>
      "Predict a type label for each query in a JSON request read from stdin\n" ++
      "\n" ++
      "Usage: querytype [OPTIONS]\n" ++
      "\n" ++
      "Options:\n" ++
      "      --config <PATH>       TOML config file. Without it, compiled defaults are used\n" ++
      "      --style <STYLE>       Output style: \"python\" (json.dumps-compatible) or " ++
        "\"compact\"\n" ++
      "      --log-level <FILTER>  Tracing filter directives for stderr logs (overrides " ++
        Config.logVariable ++ ")\n" ++
      "  -h, --help                Print help\n" ++
      "  -V, --version             Print version\n"

example : parse ["--log-level", "info", "--", "x"] = .error (.unexpectedArgument "x") := by
  rfl
example : parse ["--config", "--style=compact"] = .error (.valueRequired .config) := by
  rfl

end Command

end QueryLabel
