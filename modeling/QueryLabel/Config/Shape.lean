import QueryLabel.Config.Basic
import QueryLabel.Found
import QueryLabel.Toml.Document
import QueryLabel.Toml.Report

/-!
Settings from TOML documents.  Sections are read in the order of the document, and the first part
of the wrong shape is reported; keys that are not known do not count.
-/

namespace QueryLabel.Config

open Toml (Entries Item Key Scalar Span)

/-- What is wrong with a part of a document, and where that part is, if it has a place. -/
structure ShapeError where
  span : Option Span
  reason : String
deriving Repr, DecidableEq

/-- Floating point numbers in reports: without an exponent, and always with a point. -/
def floatLayout : Layout where
  positional _ := true
  exponentWidth := 1
  tie := .up
  nan := "NaN"
  infinity := "inf"
  negativeInfinity := "-inf"

/-- How a report names a part of the wrong type. -/
def foundItem : Item → Found
  | .scalar _ (.string text) => .string text
  | .scalar _ (.integer n) => .integer n
  | .scalar _ (.float x) => .float (floatLayout.write x)
  | .scalar _ (.boolean b) => .boolean b
  | .scalar _ .datetime => .map
  | .array _ _ => .sequence
  | .tables _ _ => .sequence
  | .table _ _ _ => .map

/-- Refuse a part of the wrong type. -/
def wrongType {α : Type} (item : Item) (wanted : String) : Except ShapeError α :=
  .error ⟨item.span?,
    "invalid type: " ++ (foundItem item).description ++ ", expected " ++ wanted⟩

/-- A text. -/
def readText : Item → Except ShapeError String
  | .scalar _ (.string text) => .ok (String.ofList text)
  | item => wrongType item "a string"

/-- The style with a name. -/
def readStyleName (span : Option Span) (name : Text) : Except ShapeError Style :=
  match Style.ofName? name with
  | some style => .ok style
  | none =>
      .error ⟨span,
        "unknown variant `" ++ String.ofList name ++ "`, expected `python` or `compact`"⟩

/-- A part that has to be empty. -/
def checkEmpty : Item → Except ShapeError Unit
  | .table _ _ [] | .array _ [] | .tables _ [] => .ok ()
  | .tables span _ => .error ⟨span, "expected empty array"⟩
  | .array span _ => .error ⟨some span, "expected empty table"⟩
  | .table span _ _ => .error ⟨span, "expected empty table"⟩
  | item => .error ⟨item.span?, "expected table, found " ++ item.typeName⟩

/-- A style: its name, or a table with its name as the only key. -/
def readStyleItem : Item → Except ShapeError Style
  | .scalar span (.string name) => readStyleName (some span) name
  | .table span _ [] => .error ⟨span, "wanted exactly 1 element, found 0 elements"⟩
  | .table _ _ [(key, item)] => do
      let style ← readStyleName (some key.span) key.name
      checkEmpty item
      .ok style
  | .table span _ (_ :: _ :: _) =>
      .error ⟨span, "wanted exactly 1 element, more than 1 element"⟩
  | item => .error ⟨item.span?, "wanted string or table"⟩

/-- Give an error without a place the place of the part around it. -/
def within {α : Type} (span : Option Span) (result : Except ShapeError α) :
    Except ShapeError α :=
  result.mapError fun e => { e with span := e.span <|> span }

/-- One setting of a section: its key, and how its part of the document changes the settings. -/
structure Setting where
  key : String
  read : Item → Config → Except ShapeError Config

/-- Read the entries of a section in their order. -/
def readNamed (settings : List Setting) : Entries → Config → Except ShapeError Config
  | [], config => .ok config
  | (key, item) :: rest, config => do
      let config ←
        match settings.find? (·.key.toList = key.name) with
        | some setting => within (item.span? <|> some key.span) (setting.read item config)
        | none => .ok config
      readNamed settings rest config

/-- Read the items of a section that is an array, in the order of the settings. -/
def readPositional : List Setting → List Item → Config → Except ShapeError Config
  | setting :: settings, item :: items, config => do
      let config ← within item.span? (setting.read item config)
      readPositional settings items config
  | _, _, config => .ok config

/-- Read a section: a table, an array, or a date, which counts as an empty table. -/
def readSection (wanted : String) (settings : List Setting) (item : Item) (config : Config) :
    Except ShapeError Config :=
  match item with
  | .table _ _ entries => readNamed settings entries config
  | .array _ items | .tables _ items => readPositional settings items config
  | .scalar _ .datetime => .ok config
  | item => wrongType item wanted

/-- The settings about the predictor. -/
def predictorSettings : List Setting :=
  [⟨"kind", fun item config => do
      .ok { config with kind := ← readText item }⟩,
    ⟨"model_path", fun item config => do
      .ok { config with modelPath := some (← readText item) }⟩]

/-- The settings about the output. -/
def outputSettings : List Setting :=
  [⟨"style", fun item config => do
      .ok { config with style := ← readStyleItem item }⟩]

/-- The settings about what is logged. -/
def observabilitySettings : List Setting :=
  [⟨"log_level", fun item config => do
      .ok { config with logLevel := ← readText item }⟩]

/-- The sections of a document. -/
def sections : List Setting :=
  [⟨"predictor", readSection "struct PredictorConfig" predictorSettings⟩,
    ⟨"output", readSection "struct OutputConfig" outputSettings⟩,
    ⟨"observability", readSection "struct ObservabilityConfig" observabilitySettings⟩]

/-- The settings that a document spells, on top of the default ones.  The name of the document is
for the error; a document that is no TOML has no report. -/
def ofToml (path : String) (document : Text) : Except ConfigError Config :=
  match Toml.parse? document with
  | none => .error (.parseError path none)
  | some entries =>
      match readNamed sections entries default with
      | .ok config => .ok config
      | .error e =>
          .error (.parseError path
            (some (Toml.report document (e.span.getD ⟨0, 0⟩) e.reason)))

end QueryLabel.Config
