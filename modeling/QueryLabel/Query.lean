import QueryLabel.Json.Members
import QueryLabel.Json.Reader
import QueryLabel.Error

/-!
Queries and the documents that carry them.  A query is an object with an optional `id` and any
other fields; a request is an object whose `queries` are an array of such objects.
-/

namespace QueryLabel

open Json (Members)

/-- One query: its identifier, if it has one, and its other fields in order. -/
structure Query where
  id : Option Json
  extra : Members

namespace Query

/-- The key of the identifier. -/
def idKey : Text := "id".toList

/-- A query with an identifier and no other fields. -/
def withId (id : Json) : Query := ⟨some id, []⟩

/-- A query with neither an identifier nor other fields. -/
def anonymous : Query := ⟨none, []⟩

/-- The query that an object spells: its identifier is taken out, and the rest are other fields. -/
def ofObject (members : Members) : Query :=
  match members.take? idKey with
  | none => ⟨none, members⟩
  | some (id, extra) => ⟨some id, extra⟩

/-- The identifier, or a null. -/
def idOrNull (query : Query) : Json :=
  query.id.getD .null

/-- Give one of the other fields a value. -/
def withField (query : Query) (key : Text) (value : Json) : Query :=
  { query with extra := query.extra.put key value }

/-- A query as an object: the identifier first, then the other fields. -/
def toJson (query : Query) : Json :=
  .object ((query.id.map fun id => (idKey, id)).toList ++ query.extra)

@[simp] theorem ofObject_of_take?_none {members : Members}
    (h : members.take? idKey = none) : ofObject members = ⟨none, members⟩ := by
  simp [ofObject, h]

end Query

/-- A request: its queries in order. -/
structure Request where
  queries : List Query

namespace Request

/-- The key of the queries. -/
def queriesKey : Text := "queries".toList

/-- The items of `queries`, from an index on; the first item that is no object is reported. -/
def queriesOfItems (index : Nat) : List Json → Except InputError (List Query)
  | [] => .ok []
  | .object members :: rest => do
      let queries ← queriesOfItems (index + 1) rest
      .ok (Query.ofObject members :: queries)
  | item :: _ => .error (.queryNotObject index item.kind)

/-- A request and the number of other members of its document, which are ignored. -/
structure Decoded where
  request : Request
  ignored : Nat

/-- The request that a value spells.  A document without queries has none. -/
def decodeJson : Json → Except InputError Decoded
  | .object members =>
      match Members.take? queriesKey members with
      | none => .ok ⟨⟨[]⟩, members.length⟩
      | some (.array items, others) => do
          let queries ← queriesOfItems 0 items
          .ok ⟨⟨queries⟩, others.length⟩
      | some (value, _) => .error (.queriesNotArray value.kind)
  | value => .error (.notAnObject value.kind)

/-- The request that a value spells, without what was ignored. -/
def ofJson (value : Json) : Except InputError Request :=
  (decodeJson value).map Decoded.request

/-- Decode a document, and count the members that are ignored. -/
def decodeCounting (document : List UInt8) : Except InputError Decoded :=
  match Json.parse document with
  | .error e => .error (.ofSyntax e)
  | .ok value => decodeJson value

/-- The request that a document spells. -/
def decode (document : List UInt8) : Except InputError Request :=
  (decodeCounting document).map Decoded.request

/-- A request as an object. -/
def toJson (request : Request) : Json :=
  .object [(queriesKey, .array (request.queries.map Query.toJson))]

end Request

end QueryLabel
