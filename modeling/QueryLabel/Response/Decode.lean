import QueryLabel.Json.Cursor
import QueryLabel.Prediction

/-!
Reading responses.  A response is an object with its predictions, and a prediction is an object
with its three fields; both may also be arrays of their fields in order.  Fields that are not
known are skipped.
-/

namespace QueryLabel.Response

open Json (Cause Cursor SyntaxError)
open Text (ascii)

/-- What a reader wants to find where a prediction belongs. -/
def predictionWanted : String := "struct Prediction"

/-- What a reader wants to find where a response belongs. -/
def responseWanted : String := "struct PredictionResponse"

/-- The number of containers that may be open in an identifier: the identifier is inside a
prediction, a list and a response. -/
def idDepthLimit : Nat := Json.depthLimit - 3

/-- The fields of a prediction that were read so far. -/
structure Fields where
  id : Option Json := none
  label : Option Text := none
  score : Option Binary64 := none

/-- A prediction is complete when all three fields were read; the first one that is missing is
reported at the cursor. -/
def Fields.finish (fields : Fields) (cursor : Cursor) : Except SyntaxError Prediction :=
  match fields.id, fields.label, fields.score with
  | some id, some label, some score => .ok ⟨id, label, score⟩
  | none, _, _ => cursor.refuseHere (.missingField "id")
  | _, none, _ => cursor.refuseHere (.missingField "type")
  | _, _, none => cursor.refuseHere (.missingField "score")

/-- Refuse a key that was there before.  The refusal is placed behind the white space that follows
the key, and behind the end of the object if that comes next. -/
def checkNew {α : Type} (old : Option α) (name : String) (cursor : Cursor) :
    Except SyntaxError Unit :=
  match old with
  | none => .ok ()
  | some _ =>
      let cursor := cursor.token
      if cursor.peek? = some (ascii '}') then cursor.refuseNext (.duplicateField name)
      else cursor.refuseHere (.duplicateField name)

/-- Read the value behind a key of a prediction. -/
def readField (fields : Fields) (key : Text) (cursor : Cursor) :
    Except SyntaxError (Fields × Cursor) := do
  if key = "id".toList then
    checkNew fields.id "id" cursor
    let (id, cursor) ← (← cursor.colon).value idDepthLimit
    .ok ({ fields with id := some id }, cursor)
  else if key = "type".toList then
    checkNew fields.label "type" cursor
    let (label, cursor) ← (← cursor.colon).string
    .ok ({ fields with label := some label }, cursor)
  else if key = "score".toList then
    checkNew fields.score "score" cursor
    let (score, cursor) ← (← cursor.colon).score
    .ok ({ fields with score := some score }, cursor)
  else .ok (fields, ← (← cursor.colon).skipValue)

/-- Read the members of a prediction up to its end; `budget` bounds their number. -/
def readFields (first : Bool) (fields : Fields) (cursor : Cursor) :
    Nat → Except SyntaxError (Prediction × Cursor)
  | 0 => cursor.refuseHere .trailingCharacters
  | budget + 1 => do
      match ← cursor.nextKey first with
      | (none, cursor) => .ok (← fields.finish cursor.next, cursor.next)
      | (some key, cursor) =>
          let (fields, cursor) ← readField fields key cursor
          readFields false fields cursor budget

/-- Move to the next field of an array, or report that the array is too short. -/
def itemOrShort (length : Nat) (wanted : String) (cursor : Cursor) :
    Except SyntaxError Cursor := do
  match ← cursor.hasItem (length = 0) with
  | (true, cursor) => .ok cursor
  | (false, cursor) => cursor.refuseNext (.invalidLength length wanted)

/-- Read a prediction that is an array of its fields. -/
def readPositional (cursor : Cursor) : Except SyntaxError (Prediction × Cursor) := do
  let wanted := predictionWanted ++ " with 3 elements"
  let (id, cursor) ← (← itemOrShort 0 wanted cursor).value idDepthLimit
  let (label, cursor) ← (← itemOrShort 1 wanted cursor).string
  let (score, cursor) ← (← itemOrShort 2 wanted cursor).score
  .ok (⟨id, label, score⟩, ← cursor.closeList)

/-- Read one prediction. -/
def readPrediction (cursor : Cursor) : Except SyntaxError (Prediction × Cursor) :=
  let cursor := cursor.token
  match cursor.peek? with
  | none => cursor.refuseHere (.unfinished .value)
  | some b =>
      if b = ascii '[' then readPositional cursor.next
      else if b = ascii '{' then readFields true {} cursor.next (cursor.rest.length + 1)
      else cursor.mismatch predictionWanted

/-- Read the predictions of a list up to its end; `budget` bounds their number. -/
def readItems (first : Bool) (cursor : Cursor) :
    Nat → Except SyntaxError (List Prediction × Cursor)
  | 0 => cursor.refuseHere .trailingCharacters
  | budget + 1 => do
      match ← cursor.hasItem first with
      | (false, cursor) => .ok ([], cursor.next)
      | (true, cursor) =>
          let (prediction, cursor) ← readPrediction cursor
          let (predictions, cursor) ← readItems false cursor budget
          .ok (prediction :: predictions, cursor)

/-- Read a list of predictions. -/
def readPredictions (cursor : Cursor) : Except SyntaxError (List Prediction × Cursor) :=
  let cursor := cursor.token
  match cursor.peek? with
  | none => cursor.refuseHere (.unfinished .value)
  | some b =>
      if b = ascii '[' then readItems true cursor.next (cursor.rest.length + 1)
      else cursor.mismatch "a sequence"

/-- Read the members of a response up to its end; `budget` bounds their number. -/
def readMembers (first : Bool) (predictions : Option (List Prediction)) (cursor : Cursor) :
    Nat → Except SyntaxError (Response × Cursor)
  | 0 => cursor.refuseHere .trailingCharacters
  | budget + 1 => do
      match ← cursor.nextKey first with
      | (none, cursor) =>
          match predictions with
          | some predictions => .ok (⟨predictions⟩, cursor.next)
          | none => cursor.refuseNext (.missingField "predictions")
      | (some key, cursor) =>
          if key = "predictions".toList then
            checkNew predictions "predictions" cursor
            let (predictions, cursor) ← readPredictions (← cursor.colon)
            readMembers false (some predictions) cursor budget
          else readMembers false predictions (← (← cursor.colon).skipValue) budget

/-- Read one response. -/
def read (cursor : Cursor) : Except SyntaxError (Response × Cursor) :=
  let cursor := cursor.token
  match cursor.peek? with
  | none => cursor.refuseHere (.unfinished .value)
  | some b =>
      if b = ascii '[' then do
        let (predictions, cursor) ←
          readPredictions (← itemOrShort 0 (responseWanted ++ " with 1 element") cursor.next)
        .ok (⟨predictions⟩, ← cursor.closeList)
      else if b = ascii '{' then readMembers true none cursor.next (cursor.rest.length + 1)
      else cursor.mismatch responseWanted

/-- The response that a document spells. -/
def decode (document : List UInt8) : Except SyntaxError Response := do
  let (response, cursor) ← read (.start document)
  Json.checkTrailing cursor.here cursor.rest
  .ok response

end QueryLabel.Response
