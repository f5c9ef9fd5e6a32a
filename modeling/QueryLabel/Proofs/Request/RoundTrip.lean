import Mathlib.Data.List.Forall2
import QueryLabel.Proofs.Json.Printing
import QueryLabel.Proofs.Query
import QueryLabel.Proofs.Request

/-!
Requests survive being written and read again (`decode_again`).  A query is written with its
identifier in front, so reading it moves other fields about, but it loses none of them and adds
none; the members of a query are those of the object it comes from (`perm_fields`), and this is
what keeps it plain.
-/

namespace QueryLabel

open Json (Members Plain)

namespace Query

/-- The members that a query is written with. -/
def fields (query : Query) : Members :=
  (query.id.map fun id => (idKey, id)).toList ++ query.extra

theorem toJson_eq (query : Query) : query.toJson = .object query.fields := rfl

/-- What a query keeps when it is written and read again: its identifier, present or not, and its
other fields, of which none comes twice.  Without an identifier they stay in order. -/
structure Survives (query again : Query) : Prop where
  id : again.id = query.id
  distinct : query.extra.Distinct
  extra : again.extra.Perm query.extra
  order : query.id = none → again.extra = query.extra

/-- The members of a query are those of its object, in some order. -/
theorem perm_fields (members : Members) : (ofObject members).fields.Perm members := by
  unfold ofObject
  cases htake : members.take? idKey with
  | none => exact List.Perm.refl members
  | some taken => exact Members.perm_of_take? htake

/-- Either the identifier comes first, or nothing has moved. -/
theorem firstKey?_fields {members : Members} (h : members.firstKey? ≠ some Json.numeralKey) :
    (ofObject members).fields.firstKey? ≠ some Json.numeralKey := by
  have hid : idKey ≠ Json.numeralKey := by decide
  unfold ofObject
  cases members.take? idKey with
  | none => exact h
  | some taken => exact fun hfirst => hid (Option.some.inj hfirst)

theorem plain_toJson {members : Members} (h : Plain (.object members)) :
    Plain (ofObject members).toJson := by
  rw [toJson_eq]
  have hperm := perm_fields members
  cases h with
  | object hfirst hkeys hmembers =>
      exact .object (firstKey?_fields hfirst) (Members.Distinct.of_perm hkeys hperm)
        fun member hmember => hmembers member (hperm.mem_iff.mp hmember)

theorem depth_toJson (members : Members) :
    (ofObject members).toJson.depth ≤ (Json.object members).depth := by
  rw [toJson_eq]
  simp only [Json.depth]
  apply Nat.add_le_add_right
  apply Json.depthMembers_le
  intro member hmember
  exact Json.depth_le_of_mem_members ((perm_fields members).mem_iff.mp hmember)

/-- A query is read again from the members it is written with. -/
theorem survives_fields {query : Query} (hid : idKey ∉ query.extra.keys)
    (hdistinct : query.extra.Distinct) : Survives query (ofObject query.fields) := by
  obtain ⟨id, extra⟩ := query
  cases id with
  | none =>
      have hagain : ofObject (fields ⟨none, extra⟩) = ⟨none, extra⟩ := ofObject_of_not_mem hid
      rw [hagain]
      exact ⟨rfl, hdistinct, List.Perm.refl extra, fun _ => rfl⟩
  | some id =>
      have hagain : ofObject (fields ⟨some id, extra⟩) = ⟨some id, Members.lastFirst extra⟩ := by
        simp [ofObject, fields, Members.take?, Members.fillHole_eq]
      rw [hagain]
      refine ⟨rfl, hdistinct, Members.perm_lastFirst extra, ?_⟩
      intro hnone
      cases hnone

theorem survives_ofObject {members : Members} (h : members.Distinct) :
    Survives (ofObject members) (ofObject (ofObject members).fields) :=
  survives_fields (idKey_not_mem_extra h) (distinct_extra h)

end Query

namespace Request

theorem plain_toJson {request : Request} (h : ∀ query ∈ request.queries, Plain query.toJson) :
    Plain request.toJson := by
  have hlist : Plain (.array (request.queries.map Query.toJson)) := by
    refine .array fun item hitem => ?_
    obtain ⟨query, hquery, rfl⟩ := List.mem_map.mp hitem
    exact h query hquery
  refine .object ?_ (List.nodup_cons.mpr ⟨List.not_mem_nil, List.nodup_nil⟩)
    (List.forall_mem_singleton.mpr hlist)
  exact fun hfirst => queriesKey_ne_numeralKey (Option.some.inj hfirst)

theorem depth_toJson {request : Request} {limit : Nat}
    (h : ∀ query ∈ request.queries, query.toJson.depth ≤ limit) :
    request.toJson.depth ≤ limit + 2 := by
  have hitems : Json.depthItems (request.queries.map Query.toJson) ≤ limit := by
    apply Json.depthItems_le
    intro item hitem
    obtain ⟨query, hquery, rfl⟩ := List.mem_map.mp hitem
    exact h query hquery
  have hdepth : request.toJson.depth ≤ Json.depthItems (request.queries.map Query.toJson) + 2 := by
    simp [toJson, Json.depth, Json.depthMembers, Json.depthMember]
  omega

/-- What is written in the compact style is read as what was written. -/
theorem parse_toJson {document : List UInt8} {request : Request}
    (h : decode document = .ok request) :
    Json.parse (Utf8.encode (Json.render .compact request.toJson)) = .ok request.toJson := by
  have hplain : Plain request.toJson := by
    refine plain_toJson fun query hquery => ?_
    obtain ⟨members, rfl, hobject, -⟩ := object_of_decode h query hquery
    exact Query.plain_toJson hobject
  have hqueries : ∀ query ∈ request.queries, query.toJson.depth ≤ Json.depthLimit - 2 := by
    intro query hquery
    obtain ⟨members, rfl, -, hlimit⟩ := object_of_decode h query hquery
    exact Nat.le_trans (Query.depth_toJson members) (Nat.le_sub_of_add_le hlimit)
  have hdepth : request.toJson.depth ≤ Json.depthLimit := depth_toJson hqueries
  exact Json.parse_render_compact hplain hdepth

/-- A request that was decoded can be written in the compact style and decoded again, and every
query survives. -/
theorem decode_again (document : List UInt8) (request : Request)
    (h : decode document = .ok request) :
    ∃ again, decode (Utf8.encode (Json.render .compact request.toJson)) = .ok again ∧
      List.Forall₂ Query.Survives request.queries again.queries := by
  refine ⟨⟨request.queries.map fun query => Query.ofObject query.fields⟩, ?_, ?_⟩
  · rw [decode_of_parse (parse_toJson h)]
    exact ofJson_objects Query.fields request.queries
  · rw [List.forall₂_map_right_iff, List.forall₂_same]
    intro query hquery
    obtain ⟨members, rfl, hobject, -⟩ := object_of_decode h query hquery
    cases hobject with
    | object _ hkeys _ => exact Query.survives_ofObject hkeys

/-- One query whose other fields change places, and one without an identifier. -/
theorem decode_again_moved :
    let document := ("\x7b\"queries\": [\x7b\"id\": 1E5, \"a\": 1, \"b\": [], \"c\": null\x7d, " ++
      "\x7b\"b\": true, \"a\": -0\x7d]\x7d").toList.map Text.ascii
    let request : Request := ⟨[⟨some (.number "1e+5".toList),
        [(['c'], .null), (['a'], .number ['1']), (['b'], .array [])]⟩,
      ⟨none, [(['b'], .bool true), (['a'], .number ['-', '0'])]⟩]⟩
    decode document = .ok request ∧
      ∃ again, decode (Utf8.encode (Json.render .compact request.toJson)) = .ok again ∧
        List.Forall₂ Query.Survives request.queries again.queries := by
  intro document request
  have hdecode : decode document = .ok request := rfl
  exact ⟨hdecode, decode_again document request hdecode⟩

end Request

end QueryLabel
