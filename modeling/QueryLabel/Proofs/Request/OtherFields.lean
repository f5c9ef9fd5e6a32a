import Mathlib.Data.List.Forall2
import QueryLabel.Proofs.Json.Numeral
import QueryLabel.Proofs.Json.Printing
import QueryLabel.Proofs.Query
import QueryLabel.Proofs.Request

/-!
The other fields of the queries in a document (`decode_otherFields`).  Each query has the fields of
its object, with the value that comes last under a key, and none is lost.  Their order is that of
the document as long as no more than one of them comes behind the identifier; from two on, the last
one stands where the identifier stood (`decode_otherFields_moved`).
-/

namespace QueryLabel

open Json (Document Members valueItems? valueMembers?)

namespace Query

/-- The keys of the other fields, among those of an object. -/
def otherKeys (keys : List Text) : List Text :=
  keys.filter (· ≠ idKey)

/-- Where the keys of an object stand once the identifier is taken out.  They keep their order
exactly if no more than one is behind the identifier. -/
structure TakesOut (keys others : List Text) : Prop where
  perm : others.Perm (otherKeys keys)
  order : others = otherKeys keys ↔
    ∀ before after, keys = before ++ idKey :: after → after.length ≤ 1
  moved : ∀ before after, keys = before ++ idKey :: after →
    others = before ++ Members.lastFirst after

/-- What a query keeps of the other fields of its object, as they are written: each key once, with
the value that comes last under it. -/
structure KeepsOthers (fields : Members) (query : Query) : Prop where
  value : ∀ key, key ≠ idKey →
    query.extra.find? key = (fields.last? key).bind Json.value?
  keys : TakesOut fields.keys.eraseDups query.extra.keys

section Keys

variable {keys before after : List Text}

theorem otherKeys_of_not_mem (h : idKey ∉ keys) : otherKeys keys = keys := by
  rw [otherKeys, List.filter_eq_self]
  intro key hkey
  exact decide_eq_true fun heq => h (heq ▸ hkey)

theorem otherKeys_split (hbefore : idKey ∉ before) (hafter : idKey ∉ after) :
    otherKeys (before ++ idKey :: after) = before ++ after := by
  have hcons : otherKeys (idKey :: after) = otherKeys after := List.filter_cons_of_neg (by simp)
  calc otherKeys (before ++ idKey :: after)
      = otherKeys before ++ otherKeys (idKey :: after) := List.filter_append ..
    _ = before ++ after := by
        rw [hcons, otherKeys_of_not_mem hbefore, otherKeys_of_not_mem hafter]

/-- Without an identifier nothing is taken out. -/
theorem takesOut_of_not_mem (h : idKey ∉ keys) : TakesOut keys keys := by
  have hnone : ∀ before after, keys ≠ before ++ idKey :: after := by
    rintro before after rfl
    exact h (List.mem_append_right _ List.mem_cons_self)
  refine ⟨?_, ?_, fun before after hkeys => absurd hkeys (hnone before after)⟩
  · rw [otherKeys_of_not_mem h]
  · refine iff_of_true ?_ fun before after hkeys => absurd hkeys (hnone before after)
    rw [otherKeys_of_not_mem h]

/-- The last of the keys behind the identifier moves into its place. -/
theorem takesOut_split (h : (before ++ idKey :: after).Nodup) :
    TakesOut (before ++ idKey :: after) (before ++ Members.lastFirst after) := by
  obtain ⟨-, hrest, hapart⟩ := List.nodup_append.mp h
  obtain ⟨hafter, hnodup⟩ := List.nodup_cons.mp hrest
  have hbefore : idKey ∉ before := fun hmem => hapart _ hmem _ List.mem_cons_self rfl
  -- distinct keys split at the identifier in one way
  have hunique : ∀ front back, before ++ idKey :: after = front ++ idKey :: back →
      before = front ∧ after = back := by
    intro front back hkeys
    obtain ⟨hfront, -, hback⟩ := (List.append_cons_inj_of_notMem hbefore hafter).mp hkeys
    exact ⟨hfront, hback⟩
  refine ⟨?_, ?_, ?_⟩
  · rw [otherKeys_split hbefore hafter]
    exact (Members.perm_lastFirst after).append_left before
  · rw [otherKeys_split hbefore hafter, List.append_cancel_left_eq,
      Members.lastFirst_eq_self_iff hnodup]
    constructor
    · intro hlength front back hkeys
      rwa [← (hunique front back hkeys).2]
    · exact fun hall => hall before after rfl
  · intro front back hkeys
    obtain ⟨rfl, rfl⟩ := hunique front back hkeys
    rfl

end Keys

theorem takesOut_ofObject {members : Members} (h : members.Distinct) :
    TakesOut members.keys (ofObject members).extra.keys := by
  rcases ofObject_cases members with ⟨hid, hquery⟩ | ⟨before, id, after, rfl, -, hquery⟩
  · rw [hquery]
    exact takesOut_of_not_mem hid
  · have hkeys : Members.keys (before ++ (idKey, id) :: after) =
        before.keys ++ idKey :: Members.keys after := List.map_append
    have hothers : Members.keys (before ++ Members.lastFirst after) =
        before.keys ++ Members.lastFirst (Members.keys after) := by
      rw [Members.keys, List.map_append, Members.map_lastFirst]
      rfl
    rw [Members.Distinct, hkeys] at h
    rw [hquery, hkeys, hothers]
    exact takesOut_split h

/-- The query of an object keeps its other fields. -/
theorem keepsOthers_ofObject {fields values : Members} (h : valueMembers? fields = some values) :
    KeepsOthers fields (ofObject (Members.collect values)) := by
  have hdistinct := Json.distinct_collect values
  refine ⟨?_, ?_⟩
  · intro key hkey
    rw [find?_extra hdistinct hkey, Members.find?_collect, Json.last?_of_valueMembers? h]
  · rw [← Json.keys_of_valueMembers? h, ← Members.keys_collect]
    exact takesOut_ofObject hdistinct

end Query

namespace Request

/-- The query objects of a document, as they are written: the items of the last list under the key
of the queries, or none without that key. -/
inductive QueryObjects : List UInt8 → List Members → Prop
  | none {document : List UInt8} {members : Members}
      (hdocument : Document document (.object members))
      (hlast : members.last? queriesKey = none) : QueryObjects document []
  | some {document : List UInt8} {members : Members} {objects : List Members}
      (hdocument : Document document (.object members))
      (hlast : members.last? queriesKey = some (.array (objects.map .object))) :
      QueryObjects document objects

/-- A query is made of the members of its object. -/
def MadeOf (fields : Members) (query : Query) : Prop :=
  ∃ values, valueMembers? fields = some values ∧ query = Query.ofObject (Members.collect values)

/-- Items that stand for objects are written as objects. -/
theorem madeOf_of_valueItems? {trees : List Json} {found : List Members}
    (h : valueItems? trees = some (found.map .object)) :
    ∃ objects, trees = objects.map .object ∧
      List.Forall₂ MadeOf objects (found.map Query.ofObject) := by
  induction trees generalizing found with
  | nil =>
      cases found with
      | nil => exact ⟨[], rfl, .nil⟩
      | cons => cases h
  | cons tree rest ih =>
      obtain ⟨value, others, hvalue, hothers, heq⟩ := Json.valueItems?_cons h
      cases found with
      | nil => cases heq
      | cons members found =>
          obtain ⟨rfl, rfl⟩ := List.cons_eq_cons.mp heq
          obtain ⟨objects, rfl, hmade⟩ := ih hothers
          obtain ⟨fields, values, rfl, -, hvalues, rfl⟩ := Json.exists_members_of_value? hvalue
          exact ⟨fields :: objects, rfl, .cons ⟨values, hvalues, rfl⟩ hmade⟩

/-- The queries of a document that is decoded are made of its query objects. -/
theorem queryObjects_of_decode {document : List UInt8} {request : Request}
    (h : decode document = .ok request) :
    ∃ objects, QueryObjects document objects ∧ List.Forall₂ MadeOf objects request.queries := by
  obtain ⟨found, hparse, hrequest⟩ := parse_of_decode h
  obtain ⟨tree, hdocument, hvalue⟩ := Json.parse_eq_ok_iff.mp hparse
  obtain ⟨members, values, rfl, -, hvalues, rfl⟩ := Json.exists_members_of_value? hvalue
  have hfind : (Members.collect values).find? queriesKey =
      (members.last? queriesKey).bind Json.value? := by
    rw [Members.find?_collect, Json.last?_of_valueMembers? hvalues]
  rcases queries_of_ofJson hrequest with ⟨hnone, hnil⟩ | ⟨items, hsome, hitems⟩
  · rw [hnil]
    refine ⟨[], .none hdocument ?_, .nil⟩
    rw [hfind, Option.bind_eq_none_iff] at hnone
    refine Option.eq_none_iff_forall_ne_some.mpr fun last hlast => ?_
    -- every member stands for a value
    obtain ⟨value, hlastValue⟩ := Json.value?_of_last? hvalues hlast
    cases (hnone last hlast).symm.trans hlastValue
  · rw [hfind] at hsome
    obtain ⟨last, hlast, hlastValue⟩ := Option.bind_eq_some_iff.mp hsome
    obtain ⟨trees, rfl, htrees⟩ := Json.exists_items_of_value? hlastValue
    obtain ⟨objects, rfl, hqueries⟩ := objects_of_queriesOfItems hitems
    obtain ⟨written, rfl, hmade⟩ := madeOf_of_valueItems? htrees
    rw [hqueries]
    exact ⟨written, .some hdocument hlast, hmade⟩

/-- Every query of a document that is decoded keeps the other fields of its object: their keys,
each with its last value, and their order exactly if no more than one of them comes behind the
identifier. -/
theorem decode_otherFields (document : List UInt8) (request : Request)
    (h : decode document = .ok request) :
    ∃ objects, QueryObjects document objects ∧
      List.Forall₂ Query.KeepsOthers objects request.queries := by
  obtain ⟨objects, hobjects, hmade⟩ := queryObjects_of_decode h
  refine ⟨objects, hobjects, hmade.imp ?_⟩
  rintro fields query ⟨values, hvalues, rfl⟩
  exact Query.keepsOthers_ofObject hvalues

/-- One other field behind the identifier, which comes again and keeps its place, and a query
without an identifier. -/
theorem decode_otherFields_two :
    let document := ("\x7b\"queries\": [\x7b\"a\": 1, \"id\": 2, \"b\": 3, \"a\": 4\x7d, " ++
      "\x7b\"b\": 5, \"a\": 6\x7d]\x7d").toList.map Text.ascii
    let request : Request := ⟨[⟨some (.number ['2']),
        [(['a'], .number ['4']), (['b'], .number ['3'])]⟩,
      ⟨none, [(['b'], .number ['5']), (['a'], .number ['6'])]⟩]⟩
    decode document = .ok request ∧
      ∃ objects, QueryObjects document objects ∧
        List.Forall₂ Query.KeepsOthers objects request.queries := by
  intro document request
  have hdecode : decode document = .ok request := rfl
  exact ⟨hdecode, decode_otherFields document request hdecode⟩

/-- Three fields behind the identifier do not keep their order. -/
theorem decode_otherFields_moved :
    let fields : Members := [(Query.idKey, .string ['q']), (['a'], .null), (['b'], .bool true),
      (['c'], .bool false)]
    let document :=
      "\x7b\"queries\":[\x7b\"id\":\"q\",\"a\":null,\"b\":true,\"c\":false\x7d]\x7d".toList.map
        Text.ascii
    let query : Query := ⟨some (.string ['q']),
      [(['c'], .bool false), (['a'], .null), (['b'], .bool true)]⟩
    QueryObjects document [fields] ∧ decode document = .ok ⟨[query]⟩ ∧
      query.extra.keys ≠ Query.otherKeys fields.keys.eraseDups := by
  intro fields document query
  have hfields : ∀ field ∈ fields, Json.EveryNumber Json.NormalLiteral field.2 := by
    simp only [fields, List.forall_mem_cons]
    exact ⟨.string, .null, .bool, .bool, List.forall_mem_nil _⟩
  have hqueries := List.forall_mem_singleton.mpr (Json.EveryNumber.object hfields)
  have htree : Json.EveryNumber Json.NormalLiteral
      (.object [(queriesKey, .array [.object fields])]) :=
    .object (List.forall_mem_singleton.mpr (.array hqueries))
  have hdocument : Document document (.object [(queriesKey, .array [.object fields])]) :=
    Json.document_render_compact htree (by decide)
  exact ⟨.some hdocument rfl, rfl, by decide⟩

end Request

end QueryLabel
