import QueryLabel.Json.Score
import QueryLabel.Json.Skip

/-!
Reading a document whose shape is known.  A cursor stands between two bytes of the document, and
readers move it: over white space, over a value of the type that is wanted, over the separators of
lists and records.
-/

namespace QueryLabel.Json

open Text (ascii)

/-- A place in a document and the bytes behind it. -/
structure Cursor where
  here : Position
  rest : List UInt8
deriving Repr, DecidableEq

namespace Cursor

/-- The beginning of a document. -/
def start (document : List UInt8) : Cursor := ⟨.start, document⟩

/-- Move over white space. -/
def skipSpace : Position → List UInt8 → Cursor
  | here, [] => ⟨here, []⟩
  | here, b :: rest => if isSpace b then skipSpace (here.advance b) rest else ⟨here, b :: rest⟩

/-- Move to the next token. -/
def token (cursor : Cursor) : Cursor :=
  skipSpace cursor.here cursor.rest

/-- Move over one byte. -/
def next (cursor : Cursor) : Cursor :=
  match cursor.rest with
  | [] => cursor
  | b :: rest => ⟨cursor.here.advance b, rest⟩

/-- The byte behind the cursor. -/
def peek? (cursor : Cursor) : Option UInt8 :=
  cursor.rest.head?

/-- Refuse the document at the cursor. -/
def refuseHere {α : Type} (cursor : Cursor) (cause : Cause) : Except SyntaxError α :=
  .error ⟨cause, cursor.here⟩

/-- Refuse the document because of the byte behind the cursor. -/
def refuseNext {α : Type} (cursor : Cursor) (cause : Cause) : Except SyntaxError α :=
  cursor.next.refuseHere cause

/-- Read any value; at most `limit` containers may be open in it at a time. -/
def value (limit : Nat) (cursor : Cursor) : Except SyntaxError (Json × Cursor) := do
  let (value, here, rest) ← State.initial.read limit cursor.here cursor.rest
  .ok (value, ⟨here, rest⟩)

/-- Skip any value. -/
def skipValue (cursor : Cursor) : Except SyntaxError Cursor := do
  let (here, rest) ← SkipState.initial.skip cursor.here cursor.rest
  .ok ⟨here, rest⟩

/-- Refuse a value of the wrong type: a scalar is read first, a container is not entered. -/
def mismatch {α : Type} (wanted : String) (cursor : Cursor) : Except SyntaxError α := do
  let cursor := cursor.token
  if cursor.peek? = some (ascii '[') then cursor.refuseHere (.invalidType .sequence wanted)
  else if cursor.peek? = some (ascii '{') then cursor.refuseHere (.invalidType .map wanted)
  else
    let (value, behind) ← cursor.value 0
    behind.refuseHere (.invalidType (found value) wanted)

/-- Read a string. -/
def string (cursor : Cursor) : Except SyntaxError (Text × Cursor) := do
  let cursor := cursor.token
  if cursor.peek? = some (ascii '"') then
    match ← cursor.value 0 with
    | (.string text, behind) => .ok (text, behind)
    | (_, behind) => behind.refuseHere .expectedValue
  else cursor.mismatch "a string"

/-- Read a binary64 number. -/
def score (cursor : Cursor) : Except SyntaxError (Binary64 × Cursor) := do
  let cursor := cursor.token
  if (cursor.peek?.bind NumberScan.start?).isSome then
    match ← cursor.value 0 with
    | (.number literal, behind) =>
        match scoreOfLiteral literal with
        | .ok x => .ok (x, behind)
        | .error unread =>
            .error ⟨.numberOutOfRange, ⟨behind.here.line, behind.here.column - unread⟩⟩
    | (_, behind) => behind.refuseHere .expectedValue
  else cursor.mismatch "f64"

/-- Whether a list goes on: the cursor then stands in front of an item, else in front of the
bracket that closes the list. -/
def hasItem (first : Bool) (cursor : Cursor) : Except SyntaxError (Bool × Cursor) :=
  let cursor := cursor.token
  match cursor.peek? with
  | none => cursor.refuseHere (.unfinished .list)
  | some b =>
      if b = ascii ']' then .ok (false, cursor)
      else if first then .ok (true, cursor)
      else if b = ascii ',' then
        let cursor := cursor.next.token
        if cursor.peek? = some (ascii ']') then cursor.refuseNext .trailingComma
        else .ok (true, cursor)
      else cursor.refuseNext .expectedItemEnd

/-- The end of a list of which all wanted items were read. -/
def closeList (cursor : Cursor) : Except SyntaxError Cursor :=
  let cursor := cursor.token
  match cursor.peek? with
  | none => cursor.refuseHere (.unfinished .list)
  | some b =>
      if b = ascii ']' then .ok cursor.next
      else if b = ascii ',' then
        let cursor := cursor.next.token
        if cursor.peek? = some (ascii ']') then cursor.refuseNext .trailingComma
        else cursor.refuseNext .trailingCharacters
      else cursor.refuseNext .trailingCharacters

/-- The next key of a record, if it goes on; the cursor then stands behind the key, else in front
of the bracket that closes the record. -/
def nextKey (first : Bool) (cursor : Cursor) : Except SyntaxError (Option Text × Cursor) :=
  let cursor := cursor.token
  let key (cursor : Cursor) : Except SyntaxError (Option Text × Cursor) := do
    match cursor.peek? with
    | none => cursor.refuseHere (.unfinished .value)
    | some b =>
        if b = ascii '"' then
          let (text, behind) ← cursor.string
          .ok (some text, behind)
        else if b = ascii '}' then cursor.refuseNext .trailingComma
        else cursor.refuseNext .expectedKey
  match cursor.peek? with
  | none => cursor.refuseHere (.unfinished .object)
  | some b =>
      if b = ascii '}' then .ok (none, cursor)
      else if first then key cursor
      else if b = ascii ',' then key cursor.next.token
      else cursor.refuseNext .expectedMemberEnd

/-- Move over the colon behind a key. -/
def colon (cursor : Cursor) : Except SyntaxError Cursor :=
  let cursor := cursor.token
  match cursor.peek? with
  | none => cursor.refuseHere (.unfinished .object)
  | some b => if b = ascii ':' then .ok cursor.next else cursor.refuseNext .expectedColon

end Cursor

end QueryLabel.Json
