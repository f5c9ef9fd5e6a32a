import QueryLabel.Config.Resolve
import QueryLabel.Transfer

/-!
The log of a run.  Each event has a place in the program that a filter can ask for, and a line; one
event happens inside the span of decoding.
-/

namespace QueryLabel

/-- The events that a run reports. -/
inductive Event
  | noModel
  | modelBound (path : String)
  | ready (predictor : String) (style : Style)
  | ignoredKeys (count bytes : Nat)
  | finished (bytesIn bytesOut : Nat)
  | failed (code : ErrorCode)
deriving Repr, DecidableEq

namespace Event

/-- The part of the program that reports an event. -/
def target : Event → String
  | noModel | modelBound _ => "querytype_engine::model_loader"
  | ready _ _ | finished _ _ => "querytype_engine::engine"
  | ignoredKeys _ _ => "querytype_engine::codec::decode"
  | failed _ => "querytype"

/-- The level of an event. -/
def level : Event → Filter.Level
  | ignoredKeys _ _ => .trace
  | noModel | modelBound _ | ready _ _ | finished _ _ | failed _ => .debug

/-- The names of the fields that an event gives. -/
def fields : Event → List String
  | noModel => ["message"]
  | modelBound _ => ["message", "path"]
  | ready _ _ => ["message", "predictor", "style"]
  | ignoredKeys _ _ => ["message", "ignored_keys"]
  | finished _ _ => ["message", "bytes_in", "bytes_out"]
  | failed _ => ["message", "code", "error"]

/-- The message of an event with its fields. -/
def text : Event → String
  | noModel => "no model path configured, using placeholder model"
  | modelBound path =>
      "model path bound to placeholder model, weights not read path=" ++ path
  | ready predictor style =>
      "prediction engine ready predictor=\"" ++ predictor ++ "\" style=" ++ style.name
  | ignoredKeys count _ => "ignoring extra top-level keys ignored_keys=" ++ toString count
  | finished bytesIn bytesOut => s!"invocation done bytes_in={bytesIn} bytes_out={bytesOut}"
  | failed code => "invocation failed code=\"" ++ code.name ++ "\""

/-- The place of an event, as filters see it. -/
def site (event : Event) : Filter.EventSite :=
  ⟨event.target.toList, event.level, event.fields.map String.toList⟩

/-- The span in which a document of some bytes is decoded. -/
def decodeSpan (bytes : Nat) : Filter.SpanSite :=
  ⟨"querytype.decode".toList, "querytype_engine::engine".toList, .debug,
    [("bytes".toList, bytes)]⟩

/-- The span in which an event happens. -/
def span? : Event → Option Filter.SpanSite
  | ignoredKeys _ bytes => some (decodeSpan bytes)
  | _ => none

/-- A span in front of an event. -/
def spanText (span : Filter.SpanSite) : String :=
  let field (f : Text × Nat) : String := String.ofList f.1 ++ "=" ++ toString f.2
  String.ofList span.name ++ "\x7b" ++ String.intercalate " " (span.fields.map field) ++ "\x7d: "

/-- The line of an event, if a filter lets it through.  The span is named if it is kept track
of. -/
def line? (table : Filter.Table) (event : Event) : Option String :=
  let body := event.target ++ ": " ++ event.text
  match event.span? with
  | none =>
      if table.allowsEvent event.site then some (event.level.tag ++ " " ++ body) else none
  | some span =>
      if table.allowsEventIn span event.site then
        some (event.level.tag ++ " " ++
          (if table.tracksSpan span then spanText span else "") ++ body)
      else none

/-- The lines of some events. -/
def lines (table : Filter.Table) (events : List Event) : List String :=
  events.filterMap (line? table)

end Event

/-- What finding the model reports. -/
def Model.events (model : Model) : List Event :=
  match model.source with
  | none => [.noModel]
  | some path => [.modelBound path]

/-- What decoding a document reports. -/
def Request.decodeEvents (document : List UInt8) : List Event :=
  match Request.decodeCounting document with
  | .ok decoded =>
      if decoded.ignored = 0 then [] else [.ignoredKeys decoded.ignored document.length]
  | .error _ => []

/-- What decoding the input reports.  An input that fails is not decoded. -/
def Source.decodeEvents (source : Source) : List Event :=
  match source.readAll with
  | .ok document => Request.decodeEvents document
  | .error _ => []

end QueryLabel
