import QueryLabel.Proofs.Json.Lookup
import QueryLabel.Query

/-!
Decoding requests.  A document is refused for its syntax exactly if the grammar does not derive
it; every other one is judged by the value that its derivation stands for.
-/

namespace QueryLabel

section Outcome

variable {ε α β : Type} {outcome : Except ε α} {f : α → β}

theorem map_eq_ok_iff {result : β} :
    outcome.map f = .ok result ↔ ∃ value, outcome = .ok value ∧ f value = result := by
  cases outcome <;> simp [Except.map]

theorem map_eq_error_iff {e : ε} : outcome.map f = .error e ↔ outcome = .error e := by
  cases outcome <;> simp [Except.map]

end Outcome

namespace Request

open Json (Document Members NumeralFree Plain)

theorem decode_of_parse {document : List UInt8} {value : Json}
    (h : Json.parse document = .ok value) : decode document = ofJson value := by
  simp only [decode, decodeCounting, h, ofJson]

/-- A document that is not read is refused for its syntax. -/
theorem decode_of_parse_error {document : List UInt8} {e : Json.SyntaxError}
    (h : Json.parse document = .error e) :
    decode document = .error (.parse e.message e.position) := by
  simp only [decode, decodeCounting, h]
  rfl

/-- The identifier of a query is the member of that name. -/
theorem id_ofObject (members : Members) :
    (Query.ofObject members).id = members.find? Query.idKey := by
  rw [← Members.map_fst_take?]
  unfold Query.ofObject
  cases members.take? Query.idKey <;> rfl

theorem ofJson_of_not_object {value : Json} (h : value.kind ≠ .object) :
    ofJson value = .error (.notAnObject value.kind) := by
  cases value with
  | object members => exact absurd rfl h
  | null | bool | number | string | array => rfl

/-- What an object is as a request is told by the value of its queries. -/
theorem ofJson_object (members : Members) :
    ofJson (.object members) =
      match members.find? queriesKey with
      | none => .ok ⟨[]⟩
      | some (.array items) => (queriesOfItems 0 items).map Request.mk
      | some value => .error (.queriesNotArray value.kind) := by
  rw [← Members.map_fst_take?]
  cases htake : Members.take? queriesKey members with
  | none => simp [ofJson, decodeJson, htake, Except.map]
  | some taken =>
      obtain ⟨value, others⟩ := taken
      cases value with
      | array items =>
          cases hitems : queriesOfItems 0 items <;>
            simp [ofJson, decodeJson, htake, hitems, bind, Except.bind, Except.map]
      | null | bool | number | string | object =>
          simp [ofJson, decodeJson, htake, Except.map]

/-- An object is a query, and the items behind it are told as they are. -/
theorem queriesOfItems_object (members : Members) (index : Nat) (rest : List Json) :
    queriesOfItems index (.object members :: rest) =
      (queriesOfItems (index + 1) rest).map (Query.ofObject members :: ·) := by
  simp only [queriesOfItems, bind, Except.bind]
  cases queriesOfItems (index + 1) rest <;> rfl

theorem queriesOfItems_ne_parse (items : List Json) (index : Nat) (message : String)
    (position : Position) : queriesOfItems index items ≠ .error (.parse message position) := by
  intro h
  induction items generalizing index with
  | nil => cases h
  | cons item rest ih =>
      cases item with
      | null | bool | number | string | array => cases h
      | object members =>
          rw [queriesOfItems_object, map_eq_error_iff] at h
          exact ih (index + 1) h

/-- A value that was read is never refused for its syntax. -/
theorem ofJson_ne_parse (value : Json) (message : String) (position : Position) :
    ofJson value ≠ .error (.parse message position) := by
  intro h
  cases value with
  | null | bool | number | string | array => cases h
  | object members =>
      rw [ofJson_object] at h
      split at h
      · cases h
      · next items _ => exact queriesOfItems_ne_parse items 0 message position (map_eq_error_iff.mp h)
      · cases h

/-- A document is refused for its syntax exactly if it is not read. -/
theorem not_parse_error_iff {document : List UInt8} :
    (∀ message position, decode document ≠ .error (.parse message position)) ↔
      ∃ value, Json.parse document = .ok value := by
  constructor
  · intro h
    cases hparse : Json.parse document with
    | ok value => exact ⟨value, rfl⟩
    | error e => exact absurd (decode_of_parse_error hparse) (h e.message e.position)
  · rintro ⟨value, hparse⟩ message position
    rw [decode_of_parse hparse]
    exact ofJson_ne_parse value message position

/-! ### Objects of queries -/

theorem queriesKey_ne_numeralKey : queriesKey ≠ Json.numeralKey := by
  decide

/-- The queries of a request are the items of the list under their key, if there is one. -/
theorem queries_of_ofJson {members : Members} {request : Request}
    (h : ofJson (.object members) = .ok request) :
    (members.find? queriesKey = none ∧ request.queries = []) ∨
      ∃ items, members.find? queriesKey = some (.array items) ∧
        queriesOfItems 0 items = .ok request.queries := by
  rw [ofJson_object] at h
  split at h
  · next hfind =>
      cases h
      exact Or.inl ⟨hfind, rfl⟩
  · next items hfind =>
      obtain ⟨queries, hitems, rfl⟩ := map_eq_ok_iff.mp h
      exact Or.inr ⟨items, hfind, hitems⟩
  · cases h

/-- A document that is decoded is read as an object. -/
theorem parse_of_decode {document : List UInt8} {request : Request}
    (h : decode document = .ok request) :
    ∃ members, Json.parse document = .ok (.object members) ∧
      ofJson (.object members) = .ok request := by
  cases hparse : Json.parse document with
  | error e =>
      rw [decode_of_parse_error hparse] at h
      contradiction
  | ok value =>
      rw [decode_of_parse hparse] at h
      cases value with
      | object members => exact ⟨members, rfl, h⟩
      | null | bool | number | string | array => cases h

/-- Items that are queries are objects. -/
theorem objects_of_queriesOfItems {items : List Json} {index : Nat} {queries : List Query}
    (h : queriesOfItems index items = .ok queries) :
    ∃ objects : List Members, items = objects.map .object ∧ queries = objects.map Query.ofObject := by
  induction items generalizing index queries with
  | nil =>
      cases h
      exact ⟨[], rfl, rfl⟩
  | cons item rest ih =>
      cases item with
      | null | bool | number | string | array => contradiction
      | object members =>
          rw [queriesOfItems_object] at h
          obtain ⟨others, hrest, rfl⟩ := map_eq_ok_iff.mp h
          obtain ⟨objects, rfl, rfl⟩ := ih hrest
          exact ⟨members :: objects, rfl, rfl⟩

/-- The query of an object comes from a plain one, two containers below the document. -/
theorem object_of_decode {document : List UInt8} {request : Request}
    (h : decode document = .ok request) :
    ∀ query ∈ request.queries, ∃ members : Members, query = Query.ofObject members ∧
      Plain (.object members) ∧ (Json.object members).depth + 2 ≤ Json.depthLimit := by
  intro query hquery
  obtain ⟨members, hparse, hrequest⟩ := parse_of_decode h
  obtain ⟨hplain, hlimit⟩ := Json.plain_of_parse hparse
  rcases queries_of_ofJson hrequest with ⟨-, hnil⟩ | ⟨items, hfind, hitems⟩
  · rw [hnil] at hquery
    cases hquery
  · obtain ⟨objects, rfl, hqueries⟩ := objects_of_queriesOfItems hitems
    rw [hqueries] at hquery
    obtain ⟨fields, hobject, rfl⟩ := List.mem_map.mp hquery
    have hfields : .object fields ∈ objects.map Json.object := List.mem_map_of_mem hobject
    have hmember := Members.mem_of_find? hfind
    have hlist := Json.depth_le_of_mem_members hmember
    have hitem := Json.depth_le_of_mem_items hfields
    cases hplain with
    | object _ _ hmembers =>
        have harray : Plain (.array (objects.map .object)) := hmembers _ hmember
        cases harray with
        | array hobjects =>
            refine ⟨fields, rfl, hobjects _ hfields, ?_⟩
            simp only [Json.depth] at hlimit hlist
            omega

/-- Objects are queries one by one. -/
theorem queriesOfItems_objects {α : Type} (members : α → Members) (list : List α) (index : Nat) :
    queriesOfItems index (list.map fun a => .object (members a)) =
      .ok (list.map fun a => Query.ofObject (members a)) := by
  induction list generalizing index with
  | nil => rfl
  | cons a rest ih =>
      rw [List.map_cons, queriesOfItems_object, ih]
      rfl

/-- A list of objects under the key of queries is a request. -/
theorem ofJson_objects {α : Type} (members : α → Members) (list : List α) :
    ofJson (.object [(queriesKey, .array (list.map fun a => .object (members a)))]) =
      .ok ⟨list.map fun a => Query.ofObject (members a)⟩ := by
  simp [ofJson_object, Members.find?, queriesOfItems_objects, Except.map]

/-- Where no object begins with the numeral key, a document is refused for its syntax exactly if
the grammar does not derive it, and otherwise decoding it is decoding the value of its
derivation. -/
theorem decode_follows_grammar (document : List UInt8)
    (hfree : ∀ tree, Document document tree → NumeralFree tree) :
    ((∀ message position, decode document ≠ .error (.parse message position)) ↔
        ∃ tree, Document document tree) ∧
      ∀ tree, Document document tree →
        ∃ value, Json.value? tree = some value ∧ decode document = ofJson value := by
  constructor
  · rw [not_parse_error_iff]
    constructor
    · rintro ⟨value, hparse⟩
      obtain ⟨tree, hdocument, -⟩ := Json.parse_eq_ok_iff.mp hparse
      exact ⟨tree, hdocument⟩
    · rintro ⟨tree, hdocument⟩
      obtain ⟨value, -, hparse⟩ := Json.parse_of_document hdocument (hfree tree hdocument)
      exact ⟨value, hparse⟩
  · intro tree hdocument
    obtain ⟨value, hvalue, hparse⟩ := Json.parse_of_document hdocument (hfree tree hdocument)
    exact ⟨value, hvalue, decode_of_parse hparse⟩

/-- A document with one query: nothing in it can spell the numeral key. -/
theorem decode_follows_grammar_one :
    let document := "\x7b\"queries\": [\x7b\"id\": 1E5\x7d]\x7d".toList.map Text.ascii
    (∀ tree, Document document tree → NumeralFree tree) ∧
      ((∀ message position, decode document ≠ .error (.parse message position)) ↔
        ∃ tree, Document document tree) ∧
      ∀ tree, Document document tree →
        ∃ value, Json.value? tree = some value ∧ decode document = ofJson value := by
  have hfree : ∀ tree, Document ("\x7b\"queries\": [\x7b\"id\": 1E5\x7d]\x7d".toList.map
      Text.ascii) tree → NumeralFree tree := by
    intro tree hdocument
    exact Json.numeralFree_of_undollared hdocument (by decide)
  exact ⟨hfree, decode_follows_grammar _ hfree⟩

end Request

end QueryLabel
