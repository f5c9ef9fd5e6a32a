import QueryLabel.Proofs.Json.Document

/-!
Trees that stand for a value.  A derivation alone does not make a document: an object that begins
with the numeral key has to be a number (`NumeralsSound`), and counts as one (`countsAs`).  What is
said here of trees in terms of their own shape is what `value?` says of them.
-/

namespace QueryLabel.Json

/-! ### Texts that hold a number -/

namespace NumberScan

/-- What can be gone through up to a place where the literal may end is read. -/
theorem read_of_run? {scan last : NumberScan} {s : List UInt8} (h : scan.run? s = some last)
    (hend : last.mayEnd = true) : scan.read s = .complete last.literal [] := by
  induction s generalizing scan with
  | nil =>
      cases h
      simp [read, hend]
  | cons b s ih =>
      obtain ⟨next, hstep, hrun⟩ := run?_cons_eq_some h
      simp only [read, hstep]
      exact ih hrun

end NumberScan

/-- A text is read as a number exactly if it spells that number, and nothing else. -/
theorem readNumeral_eq_ok_iff {text literal : Text} :
    readNumeral text = .ok literal ↔ SpellsNumber (Utf8.encode text) literal := by
  constructor
  · exact spells_of_readNumeral
  · intro h
    obtain ⟨last, hscan, hend, rfl⟩ := NumberScan.scan?_of_spells h
    unfold readNumeral
    cases hbytes : Utf8.encode text with
    | nil =>
        rw [hbytes] at hscan
        cases hscan
    | cons b rest =>
        rw [hbytes] at hscan
        obtain ⟨scan, hstart, hrun⟩ := Option.bind_eq_some_iff.mp hscan
        simp only [hstart, NumberScan.read_of_run? hrun hend]

/-! ### Objects that are numbers -/

/-- Every object that begins with the numeral key has no other member, and its value is a string
that holds a number. -/
inductive NumeralsSound : Json → Prop
  | null : NumeralsSound .null
  | bool {b : Bool} : NumeralsSound (.bool b)
  | number {literal : Text} : NumeralsSound (.number literal)
  | string {text : Text} : NumeralsSound (.string text)
  | array {items : List Json} (h : ∀ item ∈ items, NumeralsSound item) :
      NumeralsSound (.array items)
  | object {members : Members} (hfirst : members.firstKey? ≠ some numeralKey)
      (h : ∀ member ∈ members, NumeralsSound member.2) : NumeralsSound (.object members)
  | numeral {text literal : Text} (h : SpellsNumber (Utf8.encode text) literal) :
      NumeralsSound (.object [(numeralKey, .string text)])

/-- The kind that a tree counts as: an object that begins with the numeral key is a number. -/
def countsAs : Json → Kind
  | .object members => if Members.firstKey? members = some numeralKey then .number else .object
  | tree => tree.kind

/-- What an object that does not begin with the numeral key stands for. -/
theorem value?_object_eq_some {members : Members} {value : Json}
    (hfirst : members.firstKey? ≠ some numeralKey)
    (h : value? (.object members) = some value) :
    ∃ values, valueMembers? members = some values ∧ value = .object (Members.collect values) := by
  simp only [value?, hfirst, ↓reduceIte] at h
  obtain ⟨values, hvalues, rfl⟩ := Option.map_eq_some_iff.mp h
  exact ⟨values, hvalues, rfl⟩

/-- A tree stands for a value of the kind that it counts as. -/
theorem kind_of_value? {tree value : Json} (h : value? tree = some value) :
    value.kind = tree.countsAs := by
  cases tree with
  | null | bool | number | string =>
      cases h
      rfl
  | array items =>
      obtain ⟨values, -, rfl⟩ := Option.map_eq_some_iff.mp h
      rfl
  | object members =>
      by_cases hfirst : Members.firstKey? members = some numeralKey
      · simp only [value?, hfirst, ↓reduceIte] at h
        obtain ⟨-, -, literal, -, -, rfl⟩ := of_numeralValue? h
        simp [countsAs, hfirst, kind]
      · obtain ⟨values, -, rfl⟩ := value?_object_eq_some hfirst h
        simp [countsAs, hfirst, kind]

/-- What stands for an object is written as one. -/
theorem exists_members_of_value? {tree : Json} {found : Members}
    (h : value? tree = some (.object found)) :
    ∃ trees values : Members, tree = .object trees ∧ trees.firstKey? ≠ some numeralKey ∧
      valueMembers? trees = some values ∧ found = Members.collect values := by
  cases tree with
  | null | bool | number | string => cases h
  | array items => simp [value?] at h
  | object trees =>
      by_cases hfirst : Members.firstKey? trees = some numeralKey
      · simp only [value?, hfirst, ↓reduceIte] at h
        obtain ⟨-, -, literal, -, -, hnumber⟩ := of_numeralValue? h
        cases hnumber
      · obtain ⟨values, hvalues, hobject⟩ := value?_object_eq_some hfirst h
        cases hobject
        exact ⟨trees, values, rfl, hfirst, hvalues, rfl⟩

/-- A tree counts as an object if it is one that does not begin with the numeral key. -/
theorem countsAs_eq_object_iff {tree : Json} :
    tree.countsAs = .object ↔
      ∃ members : Members, tree = .object members ∧ members.firstKey? ≠ some numeralKey := by
  constructor
  · intro h
    cases tree with
    | null | bool | number | string | array => cases h
    | object members =>
        refine ⟨members, rfl, ?_⟩
        intro hfirst
        simp [countsAs, hfirst] at h
  · rintro ⟨members, rfl, hfirst⟩
    simp [countsAs, hfirst]

theorem countsAs_eq_array_iff {tree : Json} :
    tree.countsAs = .array ↔ ∃ items, tree = .array items := by
  constructor
  · intro h
    cases tree with
    | null | bool | number | string => cases h
    | array items => exact ⟨items, rfl⟩
    | object members =>
        simp only [countsAs] at h
        split at h <;> cases h
  · rintro ⟨items, rfl⟩
    rfl

/-- What stands for an array is written as one. -/
theorem exists_items_of_value? {tree : Json} {items : List Json}
    (h : value? tree = some (.array items)) :
    ∃ trees, tree = .array trees ∧ valueItems? trees = some items := by
  have hkind := kind_of_value? h
  obtain ⟨trees, rfl⟩ := countsAs_eq_array_iff.mp hkind.symm
  obtain ⟨values, hvalues, hitems⟩ := Option.map_eq_some_iff.mp h
  cases hitems
  exact ⟨trees, rfl, hvalues⟩

theorem value?_of_mem_items {items values : List Json} (h : valueItems? items = some values) :
    ∀ item ∈ items, ∃ value, value? item = some value := by
  induction items generalizing values with
  | nil => exact List.forall_mem_nil _
  | cons item rest ih =>
      obtain ⟨value, others, hvalue, hothers, rfl⟩ := valueItems?_cons h
      exact List.forall_mem_cons.mpr ⟨⟨value, hvalue⟩, ih hothers⟩

theorem value?_of_mem_members {members values : Members}
    (h : valueMembers? members = some values) :
    ∀ member ∈ members, ∃ value, value? member.2 = some value := by
  induction members generalizing values with
  | nil => exact List.forall_mem_nil _
  | cons member rest ih =>
      obtain ⟨key, tree⟩ := member
      obtain ⟨value, others, hvalue, hothers, rfl⟩ := valueMembers?_cons h
      exact List.forall_mem_cons.mpr ⟨⟨value, hvalue⟩, ih hothers⟩

/-- A tree stands for a value exactly if its numerals are sound. -/
theorem numeralsSound_iff {tree : Json} :
    NumeralsSound tree ↔ ∃ value, value? tree = some value := by
  constructor
  · intro h
    induction h with
    | null => exact ⟨_, rfl⟩
    | bool => exact ⟨_, rfl⟩
    | number => exact ⟨_, rfl⟩
    | string => exact ⟨_, rfl⟩
    | array _ ih =>
        obtain ⟨values, hvalues⟩ := valueItems?_of_forall ih
        exact ⟨.array values, by simp [value?, hvalues]⟩
    | object hfirst _ ih =>
        obtain ⟨values, hvalues⟩ := valueMembers?_of_forall ih
        exact ⟨.object (Members.collect values), by simp [value?, hfirst, hvalues]⟩
    | @numeral text literal h =>
        refine ⟨.number literal, ?_⟩
        simp [value?, Members.firstKey?, numeralValue?, readNumeral_eq_ok_iff.mpr h,
          Except.toOption]
  · rintro ⟨value, h⟩
    induction tree using Json.induction generalizing value with
    | null => exact .null
    | bool b => exact .bool
    | number literal => exact .number
    | string text => exact .string
    | array items ih =>
        obtain ⟨values, hvalues, -⟩ := Option.map_eq_some_iff.mp h
        refine .array fun item hitem => ?_
        obtain ⟨found, hfound⟩ := value?_of_mem_items hvalues item hitem
        exact ih item hitem found hfound
    | object members ih =>
        by_cases hfirst : Members.firstKey? members = some numeralKey
        · simp only [value?, hfirst, ↓reduceIte] at h
          obtain ⟨key, text, literal, rfl, hread, -⟩ := of_numeralValue? h
          obtain rfl : key = numeralKey := Option.some.inj hfirst
          exact .numeral (spells_of_readNumeral hread)
        · obtain ⟨values, hvalues, -⟩ := value?_object_eq_some hfirst h
          refine .object hfirst fun member hmember => ?_
          obtain ⟨found, hfound⟩ := value?_of_mem_members hvalues member hmember
          exact ih member hmember found hfound

/-- A document is read exactly if it has a derivation with sound numerals. -/
theorem parse_isOk_iff {document : List UInt8} :
    (∃ value, parse document = .ok value) ↔
      ∃ tree, Document document tree ∧ NumeralsSound tree := by
  constructor
  · rintro ⟨value, hparse⟩
    obtain ⟨tree, hdocument, hvalue⟩ := parse_eq_ok_iff.mp hparse
    exact ⟨tree, hdocument, numeralsSound_iff.mpr ⟨value, hvalue⟩⟩
  · rintro ⟨tree, hdocument, hsound⟩
    obtain ⟨value, hvalue⟩ := numeralsSound_iff.mp hsound
    exact ⟨value, parse_eq_ok_iff.mpr ⟨tree, hdocument, hvalue⟩⟩

end QueryLabel.Json
