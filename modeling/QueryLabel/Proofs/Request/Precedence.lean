import Mathlib.Data.List.Forall2
import QueryLabel.Proofs.Json.Lookup
import QueryLabel.Proofs.Json.Numeral
import QueryLabel.Proofs.Json.Unambiguous
import QueryLabel.Proofs.Request

/-!
Which answer a whole document gets (`decode_answers`).  Its syntax is judged first, to its end;
then the document itself, then the last list of queries in it, then the items of that list from
the first one on.  The answer is told by the tree of the document, as it is written: members that
come again and objects that are numbers are still in it (`Answers`).
-/

namespace QueryLabel.Request

open Json (Document Members NumeralsSound valueItems? valueMembers?)

/-- The query that a tree stands for: it counts as an object, and the identifier is what its last
member of that name stands for. -/
def IsQuery (tree : Json) (query : Query) : Prop :=
  ∃ members : Members, tree = .object members ∧ tree.countsAs = .object ∧
    query.id = (members.last? Query.idKey).bind Json.value?

/-- The answer to a document with this tree. -/
inductive Answers : Json → Except InputError Request → Prop
  /-- Only an object is a request. -/
  | notAnObject {tree : Json} (hkind : tree.countsAs ≠ .object) :
      Answers tree (.error (.notAnObject tree.countsAs))
  /-- Without queries the request is empty. -/
  | withoutQueries {members : Members} (hkind : (Json.object members).countsAs = .object)
      (hlast : members.last? queriesKey = none) : Answers (.object members) (.ok ⟨[]⟩)
  /-- The last member of that name counts, and has to be a list. -/
  | notAnArray {members : Members} {tree : Json}
      (hkind : (Json.object members).countsAs = .object)
      (hlast : members.last? queriesKey = some tree) (harray : tree.countsAs ≠ .array) :
      Answers (.object members) (.error (.queriesNotArray tree.countsAs))
  /-- The first item that is no object is reported. -/
  | notAnItem {members : Members} {before after : List Json} {item : Json}
      (hkind : (Json.object members).countsAs = .object)
      (hlast : members.last? queriesKey = some (.array (before ++ item :: after)))
      (hbefore : ∀ earlier ∈ before, earlier.countsAs = .object)
      (hitem : item.countsAs ≠ .object) :
      Answers (.object members) (.error (.queryNotObject before.length item.countsAs))
  /-- Every item is a query. -/
  | queries {members : Members} {items : List Json} {queries : List Query}
      (hkind : (Json.object members).countsAs = .object)
      (hlast : members.last? queriesKey = some (.array items))
      (hitems : List.Forall₂ IsQuery items queries) : Answers (.object members) (.ok ⟨queries⟩)

/-! ### Items -/

/-- A tree that counts as an object stands for the object of a query. -/
theorem isQuery_ofObject {tree value : Json} (hkind : tree.countsAs = .object)
    (hvalue : tree.value? = some value) :
    ∃ members, value = .object members ∧ IsQuery tree (Query.ofObject members) := by
  obtain ⟨trees, rfl, hfirst⟩ := Json.countsAs_eq_object_iff.mp hkind
  obtain ⟨values, hvalues, rfl⟩ := Json.value?_object_eq_some hfirst hvalue
  refine ⟨_, rfl, trees, rfl, hkind, ?_⟩
  rw [id_ofObject, Members.find?_collect, Json.last?_of_valueMembers? hvalues]

/-- What does not count as an object stands for none. -/
theorem queriesOfItems_of_not_object {tree value : Json} (hkind : tree.countsAs ≠ .object)
    (hvalue : tree.value? = some value) (index : Nat) (rest : List Json) :
    queriesOfItems index (value :: rest) = .error (.queryNotObject index tree.countsAs) := by
  rw [← Json.kind_of_value? hvalue] at hkind ⊢
  cases value with
  | object members => exact absurd rfl hkind
  | null | bool | number | string | array => rfl

/-- Items are queries, or one of them is the first that is none. -/
theorem queriesOfItems_cases {items values : List Json} (hvalues : valueItems? items = some values)
    (index : Nat) :
    (∃ queries, queriesOfItems index values = .ok queries ∧
      List.Forall₂ IsQuery items queries) ∨
    ∃ before item after, items = before ++ item :: after ∧
      (∀ earlier ∈ before, earlier.countsAs = .object) ∧ item.countsAs ≠ .object ∧
      queriesOfItems index values =
        .error (.queryNotObject (index + before.length) item.countsAs) := by
  induction items generalizing values index with
  | nil =>
      cases hvalues
      exact Or.inl ⟨[], rfl, .nil⟩
  | cons item rest ih =>
      obtain ⟨value, others, hvalue, hothers, rfl⟩ := Json.valueItems?_cons hvalues
      by_cases hkind : item.countsAs = .object
      · obtain ⟨members, rfl, hquery⟩ := isQuery_ofObject hkind hvalue
        rcases ih hothers (index + 1) with ⟨queries, hqueries, hforall⟩ |
          ⟨before, bad, after, rfl, hbefore, hbad, hqueries⟩
        · refine Or.inl ⟨_ :: queries, ?_, .cons hquery hforall⟩
          rw [queriesOfItems_object, hqueries]
          rfl
        · refine Or.inr ⟨item :: before, bad, after, rfl, ?_, hbad, ?_⟩
          · exact List.forall_mem_cons.mpr ⟨hkind, hbefore⟩
          · rw [queriesOfItems_object, hqueries, List.length_cons, Nat.add_assoc, Nat.add_comm 1]
            rfl
      · exact Or.inr ⟨[], item, rest, rfl, List.forall_mem_nil _, hkind,
          queriesOfItems_of_not_object hkind hvalue index others⟩

/-! ### Documents -/

/-- A list of queries that is the last one is answered by its items. -/
theorem answers_array {members : Members} {items values : List Json}
    (hkind : (Json.object members).countsAs = .object)
    (hlast : members.last? queriesKey = some (.array items))
    (hvalues : valueItems? items = some values) :
    Answers (.object members) ((queriesOfItems 0 values).map Request.mk) := by
  rcases queriesOfItems_cases hvalues 0 with ⟨queries, hqueries, hforall⟩ |
    ⟨before, item, after, rfl, hbefore, hitem, hqueries⟩
  · rw [hqueries]
    exact .queries hkind hlast hforall
  · rw [hqueries, Nat.zero_add]
    exact .notAnItem hkind hlast hbefore hitem

/-- What a tree stands for is answered as the tree tells. -/
theorem answers_ofJson {tree value : Json} (h : tree.value? = some value) :
    Answers tree (ofJson value) := by
  by_cases hkind : tree.countsAs = .object
  · obtain ⟨members, rfl, hfirst⟩ := Json.countsAs_eq_object_iff.mp hkind
    obtain ⟨values, hvalues, rfl⟩ := Json.value?_object_eq_some hfirst h
    rw [ofJson_object, Members.find?_collect, Json.last?_of_valueMembers? hvalues]
    cases hlast : members.last? queriesKey with
    | none => exact .withoutQueries hkind hlast
    | some found =>
        obtain ⟨last, hlastValue⟩ := Json.value?_of_last? hvalues hlast
        rw [Option.bind_some, hlastValue]
        by_cases harray : found.countsAs = .array
        · obtain ⟨items, rfl⟩ := Json.countsAs_eq_array_iff.mp harray
          obtain ⟨lasts, hlasts, rfl⟩ := Option.map_eq_some_iff.mp hlastValue
          exact answers_array hkind hlast hlasts
        · have hanswer := Answers.notAnArray hkind hlast harray
          rw [← Json.kind_of_value? hlastValue] at hanswer harray
          cases last with
          | array items => exact absurd rfl harray
          | null | bool | number | string | object => exact hanswer
  · rw [ofJson_of_not_object (by rwa [Json.kind_of_value? h]), Json.kind_of_value? h]
    exact .notAnObject hkind

/-- A document without a tree, or with a numeral that is none, is refused for its syntax, whatever
else is wrong with it; every other one is answered as its tree tells. -/
theorem decode_answers (document : List UInt8) :
    ((∃ message position, decode document = .error (.parse message position)) ↔
        ¬ ∃ tree, Document document tree ∧ NumeralsSound tree) ∧
      ∀ tree, Document document tree → NumeralsSound tree → Answers tree (decode document) := by
  constructor
  · rw [← Json.parse_isOk_iff, ← not_parse_error_iff]
    push Not
    rfl
  · intro tree hdocument hsound
    obtain ⟨value, hvalue⟩ := Json.numeralsSound_iff.mp hsound
    rw [decode_of_parse ((Json.parse_document hdocument).mpr hvalue)]
    exact answers_ofJson hvalue

/-- The first member of that name is not looked at, and in the last one the first of two bad items
is reported. -/
theorem decode_answers_first :
    let document :=
      "\x7b\"queries\": null, \"queries\": [\x7b\"id\": 1, \"id\": 2\x7d, [], 7]\x7d".toList.map
        Text.ascii
    ∃ tree, Document document tree ∧ NumeralsSound tree ∧
      Answers tree (.error (.queryNotObject 1 .array)) := by
  intro document
  have hdecode : decode document = .error (.queryNotObject 1 .array) := rfl
  have hparse : ∃ value, Json.parse document = .ok value := by
    rw [← not_parse_error_iff, hdecode]
    intro message position h
    cases h
  obtain ⟨tree, hdocument, hsound⟩ := Json.parse_isOk_iff.mp hparse
  refine ⟨tree, hdocument, hsound, ?_⟩
  rw [← hdecode]
  exact (decode_answers document).2 tree hdocument hsound

end QueryLabel.Request
