import QueryLabel.Found
import QueryLabel.Text.Position

/-!
Why a document is refused, and where.  A cause is data, and its words are in one place; a refusal
is located from the bytes that were read before it.
-/

namespace QueryLabel.Json

/-- What was being read when the document ended. -/
inductive Part
  | value
  | list
  | object
  | string
deriving Repr, DecidableEq

/-- The words for an unfinished part. -/
def Part.description : Part → String
  | value => "a value"
  | list => "a list"
  | object => "an object"
  | string => "a string"

/-- Why a document is refused. -/
inductive Cause
  | unfinished (part : Part)
  | expectedValue
  | expectedWord
  | expectedColon
  | expectedItemEnd
  | expectedMemberEnd
  | expectedKey
  | trailingComma
  | trailingCharacters
  | tooDeep
  | invalidNumber
  | numberOutOfRange
  | controlCharacter
  | invalidEscape
  | loneSurrogate
  | unfinishedPair
  | invalidCodePoint
  | invalidType (found : Found) (wanted : String)
  | invalidLength (length : Nat) (wanted : String)
  | missingField (name : String)
  | duplicateField (name : String)
deriving Repr, DecidableEq

/-- The words for a cause. -/
def Cause.description : Cause → String
  | unfinished part => "EOF while parsing " ++ part.description
  | expectedValue => "expected value"
  | expectedWord => "expected ident"
  | expectedColon => "expected `:`"
  | expectedItemEnd => "expected `,` or `]`"
  | expectedMemberEnd => "expected `,` or `\x7d`"
  | expectedKey => "key must be a string"
  | trailingComma => "trailing comma"
  | trailingCharacters => "trailing characters"
  | tooDeep => "recursion limit exceeded"
  | invalidNumber => "invalid number"
  | numberOutOfRange => "number out of range"
  | controlCharacter => "control character (\\u0000-\\u001F) found while parsing a string"
  | invalidEscape => "invalid escape"
  | loneSurrogate => "lone leading surrogate in hex escape"
  | unfinishedPair => "unexpected end of hex escape"
  | invalidCodePoint => "invalid unicode code point"
  | invalidType found wanted => "invalid type: " ++ found.description ++ ", expected " ++ wanted
  | invalidLength length wanted =>
      "invalid length " ++ toString length ++ ", expected " ++ wanted
  | missingField name => "missing field `" ++ name ++ "`"
  | duplicateField name => "duplicate field `" ++ name ++ "`"

/-- A refusal and its place in the document. -/
structure SyntaxError where
  cause : Cause
  position : Position
deriving Repr, DecidableEq

/-- The words for a refusal, with its place. -/
def SyntaxError.message (e : SyntaxError) : String :=
  s!"{e.cause.description} at line {e.position.line} column {e.position.column}"

theorem SyntaxError.message_unfinished (part : Part) (here : Position) :
    SyntaxError.message ⟨.unfinished part, here⟩ =
      s!"EOF while parsing {part.description} at line {here.line} column {here.column}" := by
  cases part <;> rfl

theorem SyntaxError.message_trailingCharacters (position : Position) :
    SyntaxError.message ⟨.trailingCharacters, position⟩ =
      s!"trailing characters at line {position.line} column {position.column}" :=
  rfl

/-- Where a fault lies, as seen by a reader that has just looked at a byte: after that byte,
before it, some columns back from the place after it, or at a place of its own. -/
inductive Place
  | afterByte
  | beforeByte
  | back (columns : Nat)
  | elsewhere (position : Position)
deriving Repr, DecidableEq

/-- A cause together with its place relative to the byte just looked at. -/
structure Fault where
  cause : Cause
  place : Place := .afterByte
deriving Repr, DecidableEq

/-- The place of a fault in a document, from the bytes before the one just looked at and that
byte.  At the end of the document there is no such byte. -/
def Place.resolve (place : Place) (before : Position) (byte : Option UInt8) : Position :=
  let next := byte.elim before before.advance
  match place with
  | afterByte => next
  | beforeByte => before
  | back columns => ⟨next.line, next.column - columns⟩
  | elsewhere position => position

end QueryLabel.Json
