import QueryLabel.Text.Basic

/-!
JSON values as documents hold them: members of an object keep their order, and a number is kept
as the literal that spelled it.
-/

namespace QueryLabel

/-- A JSON value. -/
inductive Json
  | null
  | bool (b : Bool)
  | number (literal : Text)
  | string (text : Text)
  | array (items : List Json)
  | object (members : List (Text × Json))

namespace Json

/-- The six kinds of values. -/
inductive Kind
  | null
  | boolean
  | number
  | string
  | array
  | object
deriving Repr, DecidableEq

/-- The word for a kind in messages. -/
def Kind.name : Kind → String
  | null => "null"
  | boolean => "boolean"
  | number => "number"
  | string => "string"
  | array => "array"
  | object => "object"

/-- The kind of a value. -/
def kind : Json → Kind
  | null => .null
  | bool _ => .boolean
  | number _ => .number
  | string _ => .string
  | array _ => .array
  | object _ => .object

end Json

end QueryLabel
