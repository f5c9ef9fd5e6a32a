import QueryLabel.Proofs.Json.Numeral
import QueryLabel.Proofs.Json.Printing
import QueryLabel.Proofs.Json.Unambiguous
import QueryLabel.Proofs.Query
import QueryLabel.Proofs.Request.RoundTrip

/-!
Queries that are built field by field.  Without an identifier they are the queries of the objects
with the same members (`withFields_anonymous`).  The text of a query is read back as the query
exactly if no other field was given the key of the identifier, the numeral key does not come first,
and the reader allows the depth (`withFields_readsBack`).
-/

namespace QueryLabel.Query

open Json (Document Members Plain Spells depthLimit numeralKey valueMembers?)

/-- Give other fields their values, one after the other. -/
def withFields (query : Query) (fields : Members) : Query :=
  fields.foldl (fun query field => query.withField field.1 field.2) query

/-- What building begins with: an identifier, nothing, or an object. -/
inductive Begun : Query → Prop
  | withId (id : Json) : Begun (.withId id)
  | anonymous : Begun .anonymous
  | ofObject {members : Members} (h : members.Distinct) : Begun (.ofObject members)

/-- The text of a query. -/
def text (query : Query) : List UInt8 :=
  Utf8.encode (Json.render .compact query.toJson)

/-- Queries with the same identifier, or none, and the same other fields in any order. -/
structure Same (query other : Query) : Prop where
  id : other.id = query.id
  extra : other.extra.Perm query.extra

/-- The text of a query is that of an object, and the query of this object is the same. -/
def ReadsBack (query : Query) : Prop :=
  ∃ members, Json.parse query.text = .ok (.object members) ∧ query.Same (ofObject members)

/-! ### Fields one after the other -/

section Fields

variable {query : Query} {fields : Members}

/-- Only the other fields change, and they are put as members of an object are. -/
theorem withFields_eq (query : Query) (fields : Members) :
    query.withFields fields =
      ⟨query.id, fields.foldl (fun done field => done.put field.1 field.2) query.extra⟩ := by
  induction fields generalizing query with
  | nil => rfl
  | cons field rest ih =>
      rw [withFields, List.foldl_cons]
      exact ih (query.withField field.1 field.2)

theorem mem_keys_withField (key : Text) (value : Json) {other : Text} :
    other ∈ (query.withField key value).extra.keys ↔ other ∈ query.extra.keys ∨ other = key := by
  rw [withField, Members.keys_put]
  split
  · next hkey =>
      refine ⟨Or.inl, ?_⟩
      rintro (hold | rfl)
      · exact hold
      · exact hkey
  · rw [List.mem_append, List.mem_singleton]

theorem mem_keys_withFields {key : Text} :
    key ∈ (query.withFields fields).extra.keys ↔ key ∈ query.extra.keys ∨ key ∈ fields.keys := by
  induction fields generalizing query with
  | nil => simp [withFields]
  | cons field rest ih =>
      have hrest := @ih (query.withField field.1 field.2)
      rw [mem_keys_withField, or_assoc] at hrest
      simpa [withFields, Members.keys] using hrest

theorem distinct_withFields (h : query.extra.Distinct) (fields : Members) :
    (query.withFields fields).extra.Distinct := by
  induction fields generalizing query with
  | nil => exact h
  | cons field rest ih => exact ih (h.put field.1 field.2)

theorem Begun.distinct (h : Begun query) : query.extra.Distinct := by
  cases h with
  | withId | anonymous => exact List.nodup_nil
  | ofObject hmembers => exact distinct_extra hmembers

theorem Begun.idKey_not_mem (h : Begun query) : idKey ∉ query.extra.keys := by
  cases h with
  | withId | anonymous => exact List.not_mem_nil
  | ofObject hmembers => exact idKey_not_mem_extra hmembers

/-- Only a second identifier can make two keys of a query the same. -/
theorem distinct_fields_iff (h : query.extra.Distinct) :
    query.fields.Distinct ↔ query.id = none ∨ idKey ∉ query.extra.keys := by
  obtain ⟨id, extra⟩ := query
  cases id with
  | none => exact iff_of_true h (Or.inl rfl)
  | some id =>
      have hcons : (⟨some id, extra⟩ : Query).fields = (idKey, id) :: extra := rfl
      rw [hcons, Members.Distinct, Members.keys_cons, List.nodup_cons]
      exact ⟨fun hnodup => Or.inr hnodup.1, fun hor => ⟨hor.resolve_left (by simp), h⟩⟩

end Fields

/-! ### The text of a query -/

section Text

variable {query : Query}

/-- The text of a query spells the object with its members. -/
theorem spells_text (h : ∀ member ∈ query.fields, Plain member.2) :
    Spells query.text (.object query.fields) :=
  Json.spells_render_compact (.object fun member hmember => (h member hmember).normalNumbers)

theorem parse_text (h : ∀ member ∈ query.fields, Plain member.2)
    (hdistinct : query.fields.Distinct) (hfirst : query.fields.firstKey? ≠ some numeralKey)
    (hdepth : query.toJson.depth ≤ depthLimit) :
    Json.parse query.text = .ok (.object query.fields) :=
  Json.parse_render_compact (.object hfirst hdistinct h) hdepth

/-- A text that spells an object of plain values is read as an object only if the numeral key does
not come first and the depth is allowed, and then with its members collected. -/
theorem of_parse_text (h : ∀ member ∈ query.fields, Plain member.2) {members : Members}
    (hparse : Json.parse query.text = .ok (.object members)) :
    query.fields.firstKey? ≠ some numeralKey ∧ query.toJson.depth ≤ depthLimit ∧
      members = Members.collect query.fields := by
  obtain ⟨tree, hdocument, hvalue⟩ := Json.parse_eq_ok_iff.mp hparse
  obtain ⟨rfl, hdepth⟩ := Json.eq_of_document hdocument (spells_text h)
  obtain ⟨trees, values, hobject, hfirst, hvalues, rfl⟩ := Json.exists_members_of_value? hvalue
  cases hobject
  rw [Json.valueMembers?_self fun member hmember => (h member hmember).value?_self] at hvalues
  cases hvalues
  exact ⟨hfirst, hdepth, rfl⟩

/-- The text of a query is read back as the query exactly if none of the other fields has the key
of the identifier, the numeral key does not come first, and the depth is allowed. -/
theorem readsBack_iff (hdistinct : query.extra.Distinct)
    (h : ∀ member ∈ query.fields, Plain member.2) :
    query.ReadsBack ↔ idKey ∉ query.extra.keys ∧
      query.fields.firstKey? ≠ some numeralKey ∧ query.toJson.depth ≤ depthLimit := by
  constructor
  · rintro ⟨members, hparse, hsame⟩
    obtain ⟨hfirst, hdepth, rfl⟩ := of_parse_text h hparse
    refine ⟨fun hid => ?_, hfirst, hdepth⟩
    -- what is collected has the identifier once, and `ofObject` takes it out
    exact idKey_not_mem_extra (Json.distinct_collect query.fields)
      ((hsame.extra.map Prod.fst).mem_iff.mpr hid)
  · rintro ⟨hid, hfirst, hdepth⟩
    have hfields := (distinct_fields_iff hdistinct).mpr (Or.inr hid)
    have hsurvives := survives_fields hid hdistinct
    exact ⟨query.fields, parse_text h hfields hfirst hdepth, hsurvives.id, hsurvives.extra⟩

end Text

/-- However a query is built, another field has the key of the identifier exactly if one was given
it.  If not, no key of the query comes twice, and its text is read back as the query, unless the
numeral key comes first or the depth is not allowed.  A query that was given it is never read
back. -/
theorem withFields_readsBack (start : Query) (hstart : Begun start) (fields : Members) :
    let query := start.withFields fields
    (idKey ∈ query.extra.keys ↔ idKey ∈ fields.keys) ∧
      (query.fields.Distinct ↔ query.id = none ∨ idKey ∉ fields.keys) ∧
      ((∀ member ∈ query.fields, Plain member.2) →
        Spells query.text (.object query.fields) ∧
          (query.ReadsBack ↔ idKey ∉ fields.keys ∧
            query.fields.firstKey? ≠ some numeralKey ∧ query.toJson.depth ≤ depthLimit)) := by
  intro query
  have hid : idKey ∈ query.extra.keys ↔ idKey ∈ fields.keys :=
    mem_keys_withFields.trans (or_iff_right hstart.idKey_not_mem)
  have hdistinct : query.extra.Distinct := distinct_withFields hstart.distinct fields
  refine ⟨hid, ?_, fun hplain => ⟨spells_text hplain, ?_⟩⟩
  · rw [distinct_fields_iff hdistinct, hid]
  · rw [readsBack_iff hdistinct hplain, hid]

/-- An object with its identifier in the middle, to which a field is added and one that is there
is given another value. -/
theorem withFields_readsBack_object :
    let members : Members := [(['a'], .null), (idKey, .string ['q']), (['b'], .array [.bool true])]
    let query := (ofObject members).withFields [(['c'], .bool false), (['a'], .string ['x'])]
    Begun (ofObject members) ∧ (∀ member ∈ query.fields, Plain member.2) ∧ query.ReadsBack := by
  intro members query
  have hbegun : Begun (ofObject members) := .ofObject (by decide)
  have hplain : ∀ member ∈ query.fields, Plain member.2 := by
    have hfields : query.fields = [(idKey, .string ['q']), (['a'], .string ['x']),
        (['b'], .array [.bool true]), (['c'], .bool false)] := rfl
    rw [hfields]
    simp only [List.forall_mem_cons]
    exact ⟨.string, .string, .array (List.forall_mem_singleton.mpr .bool), .bool,
      List.forall_mem_nil _⟩
  have hreads := ((withFields_readsBack (ofObject members) hbegun
    [(['c'], .bool false), (['a'], .string ['x'])]).2.2 hplain).2
  exact ⟨hbegun, hplain, hreads.mpr ⟨by decide, by decide, by decide⟩⟩

/-- A second identifier is one of the other fields, and takes the place of the first one when the
text is read. -/
theorem withField_idKey :
    let query := (withId (.string ['q'])).withField idKey (.string ['r'])
    idKey ∈ query.extra.keys ∧ ¬ query.fields.Distinct ∧ ¬ query.ReadsBack := by
  intro query
  have hparse : Json.parse query.text = .ok (.object [(idKey, .string ['r'])]) := rfl
  refine ⟨by decide, by decide, ?_⟩
  rintro ⟨members, hread, hsame⟩
  rw [hparse] at hread
  cases hread
  cases hsame.id

/-! ### Building and decoding -/

/-- Without an identifier, fields that are given one after the other make the query of every
object that is written with these members, and there is such an object. -/
theorem withFields_anonymous (fields : Members) (hid : idKey ∉ fields.keys)
    (hfirst : fields.firstKey? ≠ some numeralKey) (hplain : ∀ field ∈ fields, Plain field.2)
    (hdepth : (Json.object fields).depth ≤ depthLimit) :
    (∃ document, Document document (.object fields) ∧ valueMembers? fields = some fields) ∧
      ∀ document trees, Document document (.object trees) → valueMembers? trees = some fields →
        ∃ members, Json.parse document = .ok (.object members) ∧
          ofObject members = anonymous.withFields fields := by
  constructor
  · have hnumbers : Json.EveryNumber Json.NormalLiteral (.object fields) :=
      .object fun field hfield => (hplain field hfield).normalNumbers
    exact ⟨_, Json.document_render_compact hnumbers hdepth,
      Json.valueMembers?_self fun field hfield => (hplain field hfield).value?_self⟩
  · intro document trees hdocument hvalues
    have htrees : Members.firstKey? trees ≠ some numeralKey := by
      rwa [← Json.firstKey?_of_valueMembers? hvalues]
    have hvalue : Json.value? (.object trees) = some (.object (Members.collect fields)) := by
      simp [Json.value?, htrees, hvalues]
    refine ⟨_, (Json.parse_document hdocument).mpr hvalue, ?_⟩
    have hcollect : idKey ∉ (Members.collect fields).keys := by
      rwa [Members.keys_collect, List.mem_eraseDups]
    rw [ofObject_of_not_mem hcollect, withFields_eq]
    rfl

/-- A field that comes again keeps its place and takes the last value. -/
theorem withFields_anonymous_again :
    let fields : Members := [(['a'], .null), (['b'], .bool true), (['a'], .string ['x'])]
    (∃ document members, Document document (.object fields) ∧
        Json.parse document = .ok (.object members) ∧
        ofObject members = anonymous.withFields fields) ∧
      anonymous.withFields fields = ⟨none, [(['a'], .string ['x']), (['b'], .bool true)]⟩ := by
  intro fields
  have hplain : ∀ field ∈ fields, Plain field.2 := by
    simp only [fields, List.forall_mem_cons]
    exact ⟨.null, .bool, .string, List.forall_mem_nil _⟩
  obtain ⟨⟨document, hdocument, hvalues⟩, hall⟩ :=
    withFields_anonymous fields (by decide) (by decide) hplain (by decide)
  obtain ⟨members, hparse, hquery⟩ := hall document fields hdocument hvalues
  exact ⟨⟨document, members, hdocument, hparse, hquery⟩, rfl⟩

end QueryLabel.Query
