import QueryLabel.Error
import QueryLabel.Filter.Level
import QueryLabel.Pattern.Form
import QueryLabel.Binary64.Literal
import QueryLabel.Text.Alphanumeric
import QueryLabel.Text.Blank

/-!
Filter directives.  A filter is a row of directives between commas; each one names a target, a
span, a field of a span and a level, of which only some need to be there.  Blanks around a
directive do not count when its characters are looked at, but they do when its parts are cut out:
the parts are then shifted, and a part that would begin or end inside a character cannot be cut at
all.
-/

namespace QueryLabel.Filter

/-- What the value of a field is compared with: a number, or something that is never a number. -/
inductive FieldValue
  | word (n : Nat)
  | other
deriving Repr, DecidableEq

/-- A field that a span has to have, and perhaps its value. -/
structure FieldMatch where
  name : Text
  value : Option FieldValue
deriving Repr, DecidableEq

/-- One directive: what it is about, and what it lets through there. -/
structure Directive where
  target : Option Text := none
  span : Option Text := none
  field : Option FieldMatch := none
  level : Level := .trace
deriving Repr, DecidableEq

/-- Why a filter is refused. -/
inductive Problem
  | directive
  | level
  | pattern (refusal : Pattern.Refusal)
deriving Repr, DecidableEq

/-- The words for a problem. -/
def Problem.message : Problem → String
  | directive => "invalid filter directive"
  | level =>
      "error parsing level filter: expected one of \"off\", \"error\", \"warn\", \"info\", " ++
        "\"debug\", \"trace\", or a number 0-5"
  | pattern .malformed => "invalid field filter: error building NFA"
  | pattern .wordEdge =>
      "invalid field filter: unsupported regex feature for DFAs: cannot build DFAs for regexes " ++
        "with Unicode word boundaries; switch to ASCII word boundaries, or heuristically " ++
        "enable Unicode word boundaries or use a different regex engine"

/-- The text from a byte offset on; nothing if the offset lies inside a character. -/
def dropBytes? : Nat → Text → Option Text
  | 0, text => some text
  | _ + 1, [] => none
  | n + 1, c :: rest => if c.utf8Size ≤ n + 1 then dropBytes? (n + 1 - c.utf8Size) rest else none

/-- The first bytes of a text; nothing if they end inside a character. -/
def takeBytes? : Nat → Text → Option Text
  | 0, _ => some []
  | _ + 1, [] => none
  | n + 1, c :: rest =>
      if c.utf8Size ≤ n + 1 then (takeBytes? (n + 1 - c.utf8Size) rest).map (c :: ·) else none

/-- Cut a part out of a text between two byte offsets.  An offset inside a character crashes. -/
def cut (text : Text) (start stop : Nat) : Except (Stop Problem) Text :=
  match (dropBytes? start text).bind (takeBytes? (stop - start)) with
  | some part => .ok part
  | none => .error .crashed

/-- Cut a part out of a text from a byte offset on. -/
def cutRest (text : Text) (start : Nat) : Except (Stop Problem) Text :=
  match dropBytes? start text with
  | some part => .ok part
  | none => .error .crashed

/-- Names of numbers that are not finite, as values. -/
def nonFiniteNames : List Text := ["inf".toList, "infinity".toList, "nan".toList]

/-- A value that spells a number which is no machine word. -/
def isNumber (text : Text) : Bool :=
  (Binary64.readLiteral? text).isSome ||
    nonFiniteNames.contains (Text.lowerAscii (Binary64.splitSign text).2)

/-- The value of a field: a word, another constant, or else a pattern. -/
def parseValue (text : Text) : Except (Stop Problem) FieldValue :=
  if text = "true".toList ∨ text = "false".toList then .ok .other
  else
    match Level.readWord? text with
    | some n => .ok (.word n)
    | none =>
        if isNumber text then .ok .other
        else
          match Pattern.refusal? text with
          | none => .ok .other
          | some refusal => .error (.failed (.pattern refusal))

/-- A field: its name up to the first equals sign, and its value up to the next one. -/
def parseField (text : Text) : Except (Stop Problem) FieldMatch :=
  let name := text.takeWhile (· ≠ '=')
  match text.dropWhile (· ≠ '=') with
  | [] => .ok ⟨name, none⟩
  | _ :: rest => do
      let value ← parseValue (rest.takeWhile (· ≠ '='))
      .ok ⟨name, some value⟩

/-- How far a directive was read; the offsets say where the part that is being read begins. -/
inductive Stage
  | start
  | name (start : Nat)
  | span (start : Nat)
  | field (start : Nat)
  | fieldEnd
  | target
  | level (start : Nat)
deriving Repr, DecidableEq

/-- Whether a directive may begin with this character. -/
def mayBegin (c : Char) : Bool :=
  c = '-' || c = ':' || c = '_' || Text.isAlphanumeric c

/-- Read one character of a directive, which stands at an offset. -/
def stepDirective (piece : Text) (offset : Nat) (c : Char) (d : Directive) (stage : Stage) :
    Except (Stop Problem) (Directive × Stage) :=
  match stage with
  | .start =>
      if c = '[' then .ok (d, .span (offset + 1))
      else if mayBegin c then .ok (d, .name offset)
      else .error (.failed .directive)
  | .name start =>
      if c = '=' then do
        .ok ({ d with target := some (← cut piece start offset) }, .level (offset + 1))
      else if c = '[' then do
        .ok ({ d with target := some (← cut piece start offset) }, .span (offset + 1))
      else .ok (d, .name start)
  | .span start =>
      if c = ']' then do
        .ok ({ d with span := some (← cut piece start offset) }, .target)
      else if c = '{' then do
        let name ← cut piece start offset
        .ok ({ d with span := if name = [] then none else some name }, .field (offset + 1))
      else .ok (d, .span start)
  | .field start =>
      if c = '}' then do
        let text ← cut piece start offset
        if text = [] then .error (.failed .directive)
        else .ok ({ d with field := some (← parseField text) }, .fieldEnd)
      else .ok (d, .field start)
  | .fieldEnd => if c = ']' then .ok (d, .target) else .error (.failed .directive)
  | .target => if c = '=' then .ok (d, .level (offset + 1)) else .error (.failed .directive)
  | .level start => .ok (d, .level start)

/-- Read the characters of a directive from an offset on. -/
def walkDirective (piece : Text) :
    Nat → Text → Directive → Stage → Except (Stop Problem) (Directive × Stage)
  | _, [], d, stage => .ok (d, stage)
  | offset, c :: rest, d, stage => do
      let (d, stage) ← stepDirective piece offset c d stage
      walkDirective piece (offset + c.utf8Size) rest d stage

/-- The end of a directive: a bare name is a level or else a target, and a level may be empty. -/
def finishDirective (piece : Text) (d : Directive) (stage : Stage) :
    Except (Stop Problem) Directive :=
  match stage with
  | .name start => do
      let name ← cutRest piece start
      match Level.parse? name with
      | some level => .ok { d with level }
      | none => .ok { d with target := some name }
  | .level start => do
      let name ← cutRest piece start
      if name = [] then .ok d
      else
        match Level.parse? name with
        | some level => .ok { d with level }
        | none => .error (.failed .level)
  | .target => .ok d
  | .start | .span _ | .field _ | .fieldEnd => .error (.failed .directive)

/-- Read one directive. -/
def Directive.parse (piece : Text) : Except (Stop Problem) Directive := do
  let (d, stage) ← walkDirective piece 0 (Text.trim piece) {} .start
  finishDirective piece d stage

/-- The pieces of a text between commas. -/
def splitCommas : Text → List Text
  | [] => [[]]
  | c :: rest =>
      if c = ',' then [] :: splitCommas rest
      else
        match splitCommas rest with
        | [] => [[c]]
        | piece :: pieces => (c :: piece) :: pieces

/-- Read pieces as directives; the first problem is reported. -/
def parsePieces : List Text → Except (Stop Problem) (List Directive)
  | [] => .ok []
  | piece :: rest => do
      let d ← Directive.parse piece
      let ds ← parsePieces rest
      .ok (d :: ds)

/-- Read a filter.  Empty pieces between commas do not count. -/
def parse (text : Text) : Except (Stop Problem) (List Directive) :=
  parsePieces ((splitCommas text).filter (· ≠ []))

example : parse "a=info,[b\x7bc=5\x7d]".toList =
    .ok [{ target := some ['a'], level := .info },
      { span := some ['b'], field := some ⟨['c'], some (.word 5)⟩ }] := by
  rfl
example : parse "\u3000a=info".toList = .error .crashed := by rfl

end QueryLabel.Filter
