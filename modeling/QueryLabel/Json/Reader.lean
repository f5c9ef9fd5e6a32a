import QueryLabel.Json.Members
import QueryLabel.Json.Number
import QueryLabel.Json.StringScan

/-!
Reading JSON documents.  The reader is an automaton with a stack: a state says what may come next
in the innermost container and which containers around it are open, and every byte moves it to
another state, or is refused.  A refusal depends on nothing but the bytes up to and including the
one refused, and a document that ends too early is told by the state it ends in.
-/

namespace QueryLabel.Json

open Text (ascii)

/-- The key that makes an object a number, if it is the first one: its value is then the literal
of the number, as a string. -/
def numeralKey : Text :=
  "$serde_json::private::Number".toList

/-- What the reader of such an object wants to find behind its key. -/
def numeralWanted : String :=
  "string containing a number"

/-- The bytes between tokens that mean nothing. -/
def isSpace (b : UInt8) : Bool :=
  b = ascii ' ' ∨ b = ascii '\n' ∨ b = ascii '\t' ∨ b = ascii '\r'

/-- A container around the value that is being read: a list with its items so far, last one first;
a record with its members so far and the key of the value; or a number spelled as an object. -/
inductive Frame
  | list (items : List Json)
  | record (members : Members) (key : Text)
  | numeral

/-- What a string will be: a value, or a key of the record with these members so far. -/
inductive StringUse
  | value
  | key (members : Members)

/-- What the innermost container expects between two tokens. -/
inductive Slot
  | value
  | firstItem
  | nextItem (items : List Json)
  | afterItem (items : List Json)
  | firstKey
  | nextKey (members : Members)
  | colon (members : Members) (key : Text)
  | afterMember (members : Members)
  | numeralColon
  | afterNumeral (literal : Text)

/-- Whether the reader is between tokens, or inside a word, a number or a string. -/
inductive Mode
  | between (slot : Slot)
  | word (left : List UInt8) (value : Json)
  | number (scan : NumberScan)
  | string (use : StringUse) (scan : StringScan)

/-- The state of the reader: the mode, and the open containers around it, innermost first. -/
structure State where
  mode : Mode
  frames : List Frame

/-- The reader before the first byte of a document. -/
def State.initial : State := ⟨.between .value, []⟩

/-- What one byte leads to: another state, or the end of the outermost value, which may or may not
have taken the byte. -/
inductive Progress
  | going (state : State)
  | finished (value : Json) (tookByte : Bool)

/-- Refuse because of the byte just looked at. -/
def refuse {α : Type} (cause : Cause) : Except Fault α :=
  .error ⟨cause, .afterByte⟩

/-- How a message names a value that is no string. -/
def found : Json → Found
  | .null => .null
  | .bool b => .boolean b
  | .number literal => foundNumber literal
  | .string text => .string text
  | .array _ => .sequence
  | .object _ => .map

/-- A value is complete; `tookByte` says whether its last byte is the one just looked at. -/
def complete (value : Json) (tookByte : Bool) : List Frame → Except Fault Progress
  | [] => .ok (.finished value tookByte)
  | .list items :: frames => .ok (.going ⟨.between (.afterItem (value :: items)), frames⟩)
  | .record members key :: frames =>
      .ok (.going ⟨.between (.afterMember (members.put key value)), frames⟩)
  | .numeral :: frames =>
      match value with
      | .string text =>
          match readNumeral text with
          | .ok literal => .ok (.going ⟨.between (.afterNumeral literal), frames⟩)
          | .error e => .error ⟨e.cause, .elsewhere e.position⟩
      | value =>
          .error ⟨.invalidType (found value) numeralWanted,
            if tookByte then .afterByte else .beforeByte⟩

/-- Open a container, if the number of open ones is below the limit. -/
def openContainer (limit : Nat) (slot : Slot) (kind : Found) (frames : List Frame) :
    Except Fault State :=
  match frames with
  | .numeral :: _ => .error ⟨.invalidType kind numeralWanted, .beforeByte⟩
  | frames => if frames.length < limit then .ok ⟨.between slot, frames⟩ else refuse .tooDeep

/-- The first byte of a value. -/
def startValue (limit : Nat) (frames : List Frame) (b : UInt8) : Except Fault State :=
  if b = ascii '"' then .ok ⟨.string .value {}, frames⟩
  else if b = ascii '[' then openContainer limit .firstItem .sequence frames
  else if b = ascii '{' then openContainer limit .firstKey .map frames
  else if b = ascii 'n' then .ok ⟨.word [ascii 'u', ascii 'l', ascii 'l'] .null, frames⟩
  else if b = ascii 't' then
    .ok ⟨.word [ascii 'r', ascii 'u', ascii 'e'] (.bool true), frames⟩
  else if b = ascii 'f' then
    .ok ⟨.word [ascii 'a', ascii 'l', ascii 's', ascii 'e'] (.bool false), frames⟩
  else
    match NumberScan.start? b with
    | some scan => .ok ⟨.number scan, frames⟩
    | none => refuse .expectedValue

/-- A key is complete.  The key of a number counts only as the first one. -/
def completeKey (members : Members) (key : Text) (frames : List Frame) : State :=
  if members.isEmpty ∧ key = numeralKey then ⟨.between .numeralColon, frames⟩
  else ⟨.between (.colon members key), frames⟩

/-- A byte, not white space, where a container expects its next token. -/
def stepToken (limit : Nat) (slot : Slot) (frames : List Frame) (b : UInt8) :
    Except Fault Progress :=
  match slot with
  | .value => .going <$> startValue limit frames b
  | .firstItem =>
      if b = ascii ']' then complete (.array []) true frames
      else .going <$> startValue limit (.list [] :: frames) b
  | .nextItem items =>
      if b = ascii ']' then refuse .trailingComma
      else .going <$> startValue limit (.list items :: frames) b
  | .afterItem items =>
      if b = ascii ',' then .ok (.going ⟨.between (.nextItem items), frames⟩)
      else if b = ascii ']' then complete (.array items.reverse) true frames
      else refuse .expectedItemEnd
  | .firstKey =>
      if b = ascii '"' then .ok (.going ⟨.string (.key []) {}, frames⟩)
      else if b = ascii '}' then complete (.object []) true frames
      else refuse .expectedKey
  | .nextKey members =>
      if b = ascii '"' then .ok (.going ⟨.string (.key members) {}, frames⟩)
      else if b = ascii '}' then refuse .trailingComma
      else refuse .expectedKey
  | .colon members key =>
      if b = ascii ':' then .ok (.going ⟨.between .value, .record members key :: frames⟩)
      else refuse .expectedColon
  | .afterMember members =>
      if b = ascii ',' then .ok (.going ⟨.between (.nextKey members), frames⟩)
      else if b = ascii '}' then complete (.object members) true frames
      else refuse .expectedMemberEnd
  | .numeralColon =>
      if b = ascii ':' then .ok (.going ⟨.between .value, .numeral :: frames⟩)
      else refuse .expectedColon
  | .afterNumeral literal =>
      if b = ascii '}' then complete (.number literal) true frames
      else if b = ascii ',' then refuse .trailingComma
      else refuse .trailingCharacters

/-- A byte between tokens: white space changes nothing. -/
def stepBetween (limit : Nat) (slot : Slot) (frames : List Frame) (b : UInt8) :
    Except Fault Progress :=
  if isSpace b then .ok (.going ⟨.between slot, frames⟩) else stepToken limit slot frames b

/-- A byte inside a word. -/
def stepWord (left : List UInt8) (value : Json) (frames : List Frame) (b : UInt8) :
    Except Fault Progress :=
  match left with
  | [] => refuse .expectedWord
  | [last] => if b = last then complete value true frames else refuse .expectedWord
  | next :: left =>
      if b = next then .ok (.going ⟨.word left value, frames⟩) else refuse .expectedWord

/-- A byte in or behind a number.  The byte behind it belongs to the container. -/
def stepNumber (limit : Nat) (scan : NumberScan) (frames : List Frame) (b : UInt8) :
    Except Fault Progress :=
  match scan.step b with
  | .more scan => .ok (.going ⟨.number scan, frames⟩)
  | .ended =>
      match complete (.number scan.literal) false frames with
      | .ok (.going ⟨.between slot, outer⟩) => stepBetween limit slot outer b
      | ended => ended
  | .refused | .refusedTaken => refuse .invalidNumber

/-- A byte inside a string. -/
def stepString (use : StringUse) (scan : StringScan) (frames : List Frame) (b : UInt8) :
    Except Fault Progress := do
  match ← scan.step b with
  | .more scan => pure (.going ⟨.string use scan, frames⟩)
  | .closed text =>
      match use with
      | .value => complete (.string text) true frames
      | .key members => pure (.going (completeKey members text frames))

/-- Read one byte.  At most `limit` containers may be open at a time. -/
def State.step (limit : Nat) (state : State) (b : UInt8) : Except Fault Progress :=
  match state.mode with
  | .between slot => stepBetween limit slot state.frames b
  | .word left value => stepWord left value state.frames b
  | .number scan => stepNumber limit scan state.frames b
  | .string use scan => stepString use scan state.frames b

/-- What is unfinished when a document ends between tokens. -/
def Slot.unfinished : Slot → Part
  | .value | .nextItem _ | .nextKey _ => .value
  | .firstItem | .afterItem _ => .list
  | .firstKey | .colon _ _ | .afterMember _ | .numeralColon | .afterNumeral _ => .object

/-- What is unfinished when a document ends between tokens or inside one. -/
def Mode.unfinished : Mode → Part
  | .between slot => slot.unfinished
  | .word _ _ | .number _ => .value
  | .string _ _ => .string

/-- The document ends here.  Only a number can be complete at its end without a byte behind it. -/
def State.finish (state : State) : Except Fault Json :=
  match state.mode with
  | .number scan =>
      if scan.mayEnd then do
        match ← complete (.number scan.literal) false state.frames with
        | .going next => refuse (.unfinished next.mode.unfinished)
        | .finished value _ => pure value
      else refuse (.unfinished .value)
  | mode => refuse (.unfinished mode.unfinished)

/-- Read one value from a state on, starting at a position, and return it with the bytes behind
it and their position. -/
def State.read (limit : Nat) (state : State) (here : Position) :
    List UInt8 → Except SyntaxError (Json × Position × List UInt8)
  | [] =>
      match state.finish with
      | .ok value => .ok (value, here, [])
      | .error fault => .error ⟨fault.cause, fault.place.resolve here none⟩
  | b :: rest =>
      match state.step limit b with
      | .ok (.going next) => next.read limit (here.advance b) rest
      | .ok (.finished value true) => .ok (value, here.advance b, rest)
      | .ok (.finished value false) => .ok (value, here, b :: rest)
      | .error fault => .error ⟨fault.cause, fault.place.resolve here (some b)⟩

/-- Nothing but white space may follow a document. -/
def checkTrailing (here : Position) : List UInt8 → Except SyntaxError Unit
  | [] => .ok ()
  | b :: rest =>
      if isSpace b then checkTrailing (here.advance b) rest
      else .error ⟨.trailingCharacters, here.advance b⟩

/-- The number of containers that may be open at a time in a document. -/
def depthLimit : Nat := 127

/-- The value that a document spells. -/
def parse (document : List UInt8) : Except SyntaxError Json := do
  let (value, here, rest) ← State.initial.read depthLimit .start document
  checkTrailing here rest
  pure value

end QueryLabel.Json
