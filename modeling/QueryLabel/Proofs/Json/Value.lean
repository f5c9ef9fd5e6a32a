import QueryLabel.Proofs.Json.NumberGrammar
import QueryLabel.Proofs.Json.Completeness

/-!
Trees and the values that they stand for.  A tree without the numeral key stands for exactly one
value.  A value that a tree stands for is plain (`Plain`): its literals are in normal form, its
keys are distinct, and no object of it begins with the numeral key; so it stands for itself.
-/

namespace QueryLabel.Json

open Text (ascii)

/-- Induction over a value, through the items and the members inside it. -/
@[elab_as_elim]
theorem induction {motive : Json → Prop} (null : motive .null) (bool : ∀ b, motive (.bool b))
    (number : ∀ literal, motive (.number literal)) (string : ∀ text, motive (.string text))
    (array : ∀ items, (∀ item ∈ items, motive item) → motive (.array items))
    (object : ∀ members, (∀ member ∈ members, motive member.2) → motive (.object members))
    (value : Json) : motive value :=
  match value with
  | .null => null
  | .bool b => bool b
  | .number literal => number literal
  | .string text => string text
  | .array items =>
      array items fun item _ => item.induction null bool number string array object
  | .object members =>
      object members fun member _ => member.2.induction null bool number string array object
termination_by sizeOf value
decreasing_by
  · next hitem =>
      have hsize := List.sizeOf_lt_of_mem hitem
      simp only [Json.array.sizeOf_spec]
      omega
  · next hmember =>
      obtain ⟨key, inner⟩ := member
      have hsize := List.sizeOf_lt_of_mem hmember
      simp only [Prod.mk.sizeOf_spec] at hsize
      simp only [Json.object.sizeOf_spec]
      omega

theorem depth_le_of_mem_items {items : List Json} {item : Json} (h : item ∈ items) :
    item.depth ≤ depthItems items := by
  induction items with
  | nil => contradiction
  | cons head rest ih =>
      simp only [depthItems]
      rcases List.mem_cons.mp h with rfl | hrest
      · omega
      · have hle := ih hrest
        omega

theorem depthMember_eq (member : Text × Json) : depthMember member = member.2.depth := by
  cases member
  rfl

theorem depth_le_of_mem_members {members : Members} {member : Text × Json}
    (h : member ∈ members) : member.2.depth ≤ depthMembers members := by
  induction members with
  | nil => contradiction
  | cons head rest ih =>
      simp only [depthMembers, depthMember_eq]
      rcases List.mem_cons.mp h with rfl | hrest
      · omega
      · have hle := ih hrest
        omega

theorem depthItems_le {items : List Json} {limit : Nat} (h : ∀ item ∈ items, item.depth ≤ limit) :
    depthItems items ≤ limit := by
  induction items with
  | nil => exact Nat.zero_le limit
  | cons head rest ih =>
      obtain ⟨hhead, hrest⟩ := List.forall_mem_cons.mp h
      have hle := ih hrest
      simp only [depthItems]
      omega

theorem depthMembers_le {members : Members} {limit : Nat}
    (h : ∀ member ∈ members, member.2.depth ≤ limit) : depthMembers members ≤ limit := by
  induction members with
  | nil => exact Nat.zero_le limit
  | cons head rest ih =>
      obtain ⟨hhead, hrest⟩ := List.forall_mem_cons.mp h
      have hle := ih hrest
      simp only [depthMembers, depthMember_eq]
      omega

/-! ### Trees without the numeral key -/

theorem valueItems?_of_forall {items : List Json}
    (h : ∀ item ∈ items, ∃ value, value? item = some value) :
    ∃ values, valueItems? items = some values := by
  induction items with
  | nil => exact ⟨[], rfl⟩
  | cons item rest ih =>
      obtain ⟨⟨value, hvalue⟩, hrest⟩ := List.forall_mem_cons.mp h
      obtain ⟨values, hvalues⟩ := ih hrest
      exact ⟨value :: values, by simp [valueItems?, hvalue, hvalues]⟩

theorem valueMembers?_of_forall {members : Members}
    (h : ∀ member ∈ members, ∃ value, value? member.2 = some value) :
    ∃ values, valueMembers? members = some values := by
  induction members with
  | nil => exact ⟨[], rfl⟩
  | cons member rest ih =>
      obtain ⟨⟨value, hvalue⟩, hrest⟩ := List.forall_mem_cons.mp h
      obtain ⟨values, hvalues⟩ := ih hrest
      obtain ⟨key, tree⟩ := member
      exact ⟨(key, value) :: values, by simp [valueMembers?, valueMember?, hvalue, hvalues]⟩

/-- A tree without the numeral key stands for a value. -/
theorem NumeralFree.value? {tree : Json} (h : NumeralFree tree) :
    ∃ value, value? tree = some value := by
  induction tree using Json.induction with
  | null => exact ⟨.null, rfl⟩
  | bool b => exact ⟨.bool b, rfl⟩
  | number literal => exact ⟨.number literal, rfl⟩
  | string text => exact ⟨.string text, rfl⟩
  | array items ih =>
      cases h with
      | array hitems =>
          obtain ⟨values, hvalues⟩ :=
            valueItems?_of_forall fun item hitem => ih item hitem (hitems item hitem)
          exact ⟨.array values, by simp [Json.value?, hvalues]⟩
  | object members ih =>
      cases h with
      | object hfirst hmembers =>
          obtain ⟨values, hvalues⟩ := valueMembers?_of_forall fun member hmember =>
            ih member hmember (hmembers member hmember)
          exact ⟨.object (Members.collect values), by simp [Json.value?, hfirst, hvalues]⟩

/-! ### Plain values -/

/-- Every number literal in a value has a property. -/
inductive EveryNumber (P : Text → Prop) : Json → Prop
  | null : EveryNumber P .null
  | bool {b : Bool} : EveryNumber P (.bool b)
  | number {literal : Text} (h : P literal) : EveryNumber P (.number literal)
  | string {text : Text} : EveryNumber P (.string text)
  | array {items : List Json} (h : ∀ item ∈ items, EveryNumber P item) :
      EveryNumber P (.array items)
  | object {members : Members} (h : ∀ member ∈ members, EveryNumber P member.2) :
      EveryNumber P (.object members)

/-- A literal in normal form: it is what it spells. -/
def NormalLiteral (literal : Text) : Prop :=
  SpellsNumber (Utf8.encode literal) literal

/-- A value as readers return them: literals are in their normal form, keys are distinct, and no
object has the numeral key as its first one. -/
inductive Plain : Json → Prop
  | null : Plain .null
  | bool {b : Bool} : Plain (.bool b)
  | number {literal : Text} (h : NormalLiteral literal) : Plain (.number literal)
  | string {text : Text} : Plain (.string text)
  | array {items : List Json} (h : ∀ item ∈ items, Plain item) : Plain (.array items)
  | object {members : Members} (hfirst : members.firstKey? ≠ some numeralKey)
      (hkeys : members.Distinct) (h : ∀ member ∈ members, Plain member.2) :
      Plain (.object members)

theorem mem_put {key : Text} {value : Json} {members : Members} {member : Text × Json}
    (h : member ∈ members.put key value) : member ∈ members ∨ member.2 = value := by
  induction members with
  | nil =>
      rw [Members.put, List.mem_singleton] at h
      subst h
      exact Or.inr rfl
  | cons head rest ih =>
      obtain ⟨k, old⟩ := head
      unfold Members.put at h
      split at h
      · rcases List.mem_cons.mp h with rfl | hrest
        · exact Or.inr rfl
        · exact Or.inl (List.mem_cons_of_mem _ hrest)
      · rcases List.mem_cons.mp h with rfl | hrest
        · exact Or.inl List.mem_cons_self
        · rcases ih hrest with hold | hnew
          · exact Or.inl (List.mem_cons_of_mem _ hold)
          · exact Or.inr hnew

theorem firstKey?_put (key : Text) (value : Json) (members : Members) :
    (members.put key value).firstKey? = members.firstKey?.or (some key) := by
  cases members with
  | nil => rfl
  | cons head rest =>
      obtain ⟨k, old⟩ := head
      unfold Members.put
      split <;> rfl

section Collect

variable {members done : Members}

/-- What is put one after the other: a property of `done` that `put` keeps is kept. -/
theorem foldl_put_induction {P : Members → Prop}
    (hput : ∀ done, ∀ member ∈ members, P done → P (done.put member.1 member.2))
    (hdone : P done) :
    P (members.foldl (fun done member => done.put member.1 member.2) done) := by
  induction members generalizing done with
  | nil => exact hdone
  | cons member rest ih =>
      apply ih
      · intro done other hother
        exact hput done other (List.mem_cons_of_mem _ hother)
      · exact hput done member List.mem_cons_self hdone

theorem distinct_collect (members : Members) : (Members.collect members).Distinct := by
  apply foldl_put_induction
  · intro done member _ hdone
    exact hdone.put member.1 member.2
  · exact List.nodup_nil

/-- The collected values are among those that were written. -/
theorem collect_forall {P : Json → Prop} (h : ∀ member ∈ members, P member.2) :
    ∀ member ∈ Members.collect members, P member.2 := by
  apply foldl_put_induction (P := fun done => ∀ member ∈ done, P member.2)
  · intro done member hmember hdone other hother
    rcases mem_put hother with hold | hnew
    · exact hdone other hold
    · rw [hnew]
      exact h member hmember
  · intro member hmember
    cases hmember

theorem firstKey?_foldl_put :
    Members.firstKey? (members.foldl (fun done member => done.put member.1 member.2) done) =
      done.firstKey?.or members.firstKey? := by
  induction members generalizing done with
  | nil => simp [Members.firstKey?]
  | cons member rest ih =>
      rw [List.foldl_cons, ih, firstKey?_put]
      cases hdone : done.firstKey? <;> simp [Members.firstKey?]

theorem firstKey?_collect (members : Members) :
    (Members.collect members).firstKey? = members.firstKey? := by
  unfold Members.collect
  rw [firstKey?_foldl_put]
  rfl

theorem put_of_not_mem {key : Text} (h : key ∉ members.keys) (value : Json) :
    members.put key value = members ++ [(key, value)] := by
  induction members with
  | nil => rfl
  | cons head rest ih =>
      obtain ⟨k, old⟩ := head
      simp only [Members.keys_cons, List.mem_cons, not_or] at h
      have hk : ¬ k = key := fun heq => h.1 heq.symm
      rw [Members.put, if_neg hk, ih h.2, List.cons_append]

theorem foldl_put_of_distinct (h : Members.Distinct (done ++ members)) :
    members.foldl (fun done member => done.put member.1 member.2) done = done ++ members := by
  induction members generalizing done with
  | nil => simp
  | cons member rest ih =>
      obtain ⟨key, value⟩ := member
      have hnot : key ∉ done.keys := by
        intro hmem
        simp only [Members.Distinct, Members.keys, List.map_append, List.map_cons,
          List.nodup_append] at h
        exact h.2.2 key hmem key List.mem_cons_self rfl
      rw [List.foldl_cons, put_of_not_mem hnot, ih (by simpa using h), List.append_assoc]
      rfl

/-- Members with distinct keys are collected as they are. -/
theorem collect_of_distinct (h : members.Distinct) : Members.collect members = members :=
  foldl_put_of_distinct (by simpa using h)

end Collect

theorem encode_byteChars {s : List UInt8} (h : ∀ b ∈ s, b.toNat < 0x80) :
    Utf8.encode (s.map byteChar) = s := by
  induction s with
  | nil => rfl
  | cons b s ih =>
      obtain ⟨hb, hs⟩ := List.forall_mem_cons.mp h
      have hchar : (byteChar b).toNat = b.toNat := Utf8.toNat_ofNat_of_lt (by omega)
      rw [List.map_cons, Utf8.encode_cons, ih hs, Utf8.encodeChar_of_lt (by omega), hchar]
      simp

theorem lt_of_isDigit {b : UInt8} (h : isDigit b = true) : b.toNat < 0x80 := by
  have hle : b ≤ ascii '9' := by
    simp only [isDigit, Bool.and_eq_true, decide_eq_true_eq] at h
    exact h.2
  have hlast : b.toNat ≤ 57 := UInt8.le_iff_toNat_le.mp hle
  omega

theorem WholePart.isDigit {s : List UInt8} (h : WholePart s) : ∀ b ∈ s, isDigit b := by
  cases h with
  | zero =>
      intro b hb
      rw [List.mem_singleton] at hb
      subst hb
      rfl
  | digits hd hzero hs => exact List.forall_mem_cons.mpr ⟨hd, hs⟩

/-- The bytes of a number up to its exponent are ASCII. -/
theorem lt_of_mem_mantissa {sign whole fraction : List UInt8}
    (hsign : sign = [] ∨ sign = [ascii '-']) (hwhole : WholePart whole)
    (hfraction : FractionPart fraction) : ∀ b ∈ sign ++ whole ++ fraction, b.toNat < 0x80 := by
  intro b hb
  simp only [List.mem_append] at hb
  rcases hb with (hb | hb) | hb
  · rcases hsign with rfl | rfl
    · cases hb
    · rw [List.mem_singleton] at hb
      subst hb
      decide
  · exact lt_of_isDigit (hwhole.isDigit b hb)
  · cases hfraction with
    | none => cases hb
    | point hs =>
        rcases List.mem_cons.mp hb with rfl | hb
        · decide
        · exact lt_of_isDigit (hs.2 b hb)

/-- The normal form of an exponent spells itself. -/
theorem ExponentPart.normal {s : List UInt8} {power : Text} (h : ExponentPart s power) :
    ExponentPart (Utf8.encode power) power := by
  cases h with
  | none => exact .none
  | @unsigned mark s hmark hs =>
      have hencode : Utf8.encode (s.map byteChar) = s :=
        encode_byteChars fun b hb => lt_of_isDigit (hs.2 b hb)
      have hbytes : Utf8.encode ('e' :: '+' :: s.map byteChar) = ascii 'e' :: ascii '+' :: s := by
        rw [Utf8.encode_cons, Utf8.encode_cons, hencode]
        rfl
      rw [hbytes]
      exact .signed (Or.inl rfl) (Or.inl rfl) hs
  | @signed mark sign s hmark hsign hs =>
      have hencode : Utf8.encode ((sign :: s).map byteChar) = sign :: s := by
        apply encode_byteChars
        intro b hb
        rcases List.mem_cons.mp hb with rfl | hb
        · rcases hsign with rfl | rfl <;> decide
        · exact lt_of_isDigit (hs.2 b hb)
      have hbytes : Utf8.encode ('e' :: byteChar sign :: s.map byteChar) =
          ascii 'e' :: sign :: s := by
        rw [← List.map_cons, Utf8.encode_cons, hencode]
        rfl
      rw [hbytes]
      exact .signed (Or.inl rfl) hsign hs

/-- The literal that a number spells is in normal form. -/
theorem SpellsNumber.normal {s : List UInt8} {literal : Text} (h : SpellsNumber s literal) :
    NormalLiteral literal := by
  cases h with
  | mk hsign hwhole hfraction hexponent =>
      unfold NormalLiteral
      rw [Utf8.encode_append, encode_byteChars (lt_of_mem_mantissa hsign hwhole hfraction)]
      exact .mk hsign hwhole hfraction hexponent.normal

theorem plain_items {items values : List Json}
    (ih : ∀ item ∈ items, ∀ value, value? item = some value → Plain value)
    (h : valueItems? items = some values) : ∀ value ∈ values, Plain value := by
  induction items generalizing values with
  | nil =>
      cases h
      intro value hvalue
      cases hvalue
  | cons item rest ihRest =>
      obtain ⟨value, others, hvalue, hothers, rfl⟩ := valueItems?_cons h
      obtain ⟨hitem, hrest⟩ := List.forall_mem_cons.mp ih
      exact List.forall_mem_cons.mpr ⟨hitem value hvalue, ihRest hrest hothers⟩

theorem plain_members {members values : Members}
    (ih : ∀ member ∈ members, ∀ value, value? member.2 = some value → Plain value)
    (h : valueMembers? members = some values) : ∀ member ∈ values, Plain member.2 := by
  induction members generalizing values with
  | nil =>
      cases h
      intro value hvalue
      cases hvalue
  | cons member rest ihRest =>
      obtain ⟨key, tree⟩ := member
      obtain ⟨value, others, hvalue, hothers, rfl⟩ := valueMembers?_cons h
      obtain ⟨hmember, hrest⟩ := List.forall_mem_cons.mp ih
      exact List.forall_mem_cons.mpr ⟨hmember value hvalue, ihRest hrest hothers⟩

theorem firstKey?_of_valueMembers? {members values : Members}
    (h : valueMembers? members = some values) : values.firstKey? = members.firstKey? := by
  cases members with
  | nil =>
      cases h
      rfl
  | cons member rest =>
      obtain ⟨key, tree⟩ := member
      obtain ⟨value, others, -, -, rfl⟩ := valueMembers?_cons h
      rfl

mutual

/-- The grammar derives normal forms. -/
theorem normalNumbers_of_spells {s : List UInt8} {tree : Json} (h : Spells s tree) :
    EveryNumber NormalLiteral tree := by
  cases h with
  | null => exact .null
  | true | false => exact .bool
  | number h => exact .number h.normal
  | string h => exact .string
  | emptyArray hw => exact .array (List.forall_mem_nil _)
  | array h => exact .array (normalNumbers_of_items h)
  | emptyObject hw => exact .object (List.forall_mem_nil _)
  | object h => exact .object (normalNumbers_of_members h)

theorem normalNumbers_of_items {s : List UInt8} {items : List Json} (h : SpellsItems s items) :
    ∀ item ∈ items, EveryNumber NormalLiteral item := by
  cases h with
  | one ha h hb =>
      exact List.forall_mem_cons.mpr ⟨normalNumbers_of_spells h, List.forall_mem_nil _⟩
  | cons ha h hb hr =>
      exact List.forall_mem_cons.mpr ⟨normalNumbers_of_spells h, normalNumbers_of_items hr⟩

theorem normalNumbers_of_member {s : List UInt8} {member : Text × Json}
    (h : SpellsMember s member) : EveryNumber NormalLiteral member.2 := by
  cases h with
  | mk ha hkey hb hc h hd => exact normalNumbers_of_spells h

theorem normalNumbers_of_members {s : List UInt8} {members : Members}
    (h : SpellsMembers s members) : ∀ member ∈ members, EveryNumber NormalLiteral member.2 := by
  cases h with
  | one h => exact List.forall_mem_cons.mpr ⟨normalNumbers_of_member h, List.forall_mem_nil _⟩
  | cons h hr =>
      exact List.forall_mem_cons.mpr ⟨normalNumbers_of_member h, normalNumbers_of_members hr⟩

end

/-- The number that stands behind the numeral key is in its normal form. -/
theorem plain_of_numeralValue? {members : Members} {value : Json}
    (h : numeralValue? members = some value) : Plain value := by
  obtain ⟨key, text, literal, -, hread, rfl⟩ := of_numeralValue? h
  exact .number (spells_of_readNumeral hread).normal

/-- A value that a tree of normal forms stands for is plain. -/
theorem plain_of_value? {tree value : Json} (hnormal : EveryNumber NormalLiteral tree)
    (h : value? tree = some value) : Plain value := by
  induction hnormal generalizing value with
  | null =>
      cases h
      exact .null
  | bool =>
      cases h
      exact .bool
  | number hliteral =>
      cases h
      exact .number hliteral
  | string =>
      cases h
      exact .string
  | array hitems ih =>
      obtain ⟨values, hvalues, rfl⟩ := Option.map_eq_some_iff.mp h
      exact .array (plain_items (fun item hitem value => ih item hitem) hvalues)
  | object hmembers ih =>
      simp only [value?] at h
      split at h
      · exact plain_of_numeralValue? h
      · next hfirst =>
          obtain ⟨values, hvalues, rfl⟩ := Option.map_eq_some_iff.mp h
          have hplain := plain_members (fun member hmember value => ih member hmember) hvalues
          refine .object ?_ (distinct_collect values) (collect_forall hplain)
          rwa [firstKey?_collect, firstKey?_of_valueMembers? hvalues]

theorem valueItems?_self {items : List Json} (h : ∀ item ∈ items, value? item = some item) :
    valueItems? items = some items := by
  induction items with
  | nil => rfl
  | cons item rest ih =>
      obtain ⟨hitem, hrest⟩ := List.forall_mem_cons.mp h
      simp [valueItems?, hitem, ih hrest]

theorem valueMembers?_self {members : Members}
    (h : ∀ member ∈ members, value? member.2 = some member.2) :
    valueMembers? members = some members := by
  induction members with
  | nil => rfl
  | cons member rest ih =>
      obtain ⟨key, tree⟩ := member
      obtain ⟨hmember, hrest⟩ := List.forall_mem_cons.mp h
      have hmember : value? tree = some tree := hmember
      simp [valueMembers?, valueMember?, hmember, ih hrest]

/-- A plain value stands for itself. -/
theorem Plain.value?_self {value : Json} (h : Plain value) : value? value = some value := by
  induction h with
  | null | bool | number | string => rfl
  | array hitems ih => simp [value?, valueItems?_self ih]
  | object hfirst hkeys hmembers ih =>
      simp [value?, hfirst, valueMembers?_self ih, collect_of_distinct hkeys]

theorem depthItems_le_of_valueItems? {items values : List Json}
    (ih : ∀ item ∈ items, ∀ value, value? item = some value → value.depth ≤ item.depth)
    (h : valueItems? items = some values) : depthItems values ≤ depthItems items := by
  induction items generalizing values with
  | nil =>
      cases h
      exact Nat.le_refl _
  | cons item rest ihRest =>
      obtain ⟨value, others, hvalue, hothers, rfl⟩ := valueItems?_cons h
      obtain ⟨hitem, hrest⟩ := List.forall_mem_cons.mp ih
      have hhead := hitem value hvalue
      have htail := ihRest hrest hothers
      simp only [depthItems]
      omega

theorem depthMembers_le_of_valueMembers? {members values : Members}
    (ih : ∀ member ∈ members, ∀ value, value? member.2 = some value →
      value.depth ≤ member.2.depth)
    (h : valueMembers? members = some values) :
    ∀ member ∈ values, member.2.depth ≤ depthMembers members := by
  induction members generalizing values with
  | nil =>
      cases h
      exact List.forall_mem_nil _
  | cons member rest ihRest =>
      obtain ⟨key, tree⟩ := member
      obtain ⟨value, others, hvalue, hothers, rfl⟩ := valueMembers?_cons h
      obtain ⟨hmember, hrest⟩ := List.forall_mem_cons.mp ih
      have hhead := hmember value hvalue
      have htail := ihRest hrest hothers
      simp only [depthMembers, depthMember]
      rw [List.forall_mem_cons]
      constructor
      · simp only at hhead ⊢
        omega
      · intro other hother
        have hle := htail other hother
        omega

/-- A value is no deeper than a tree that stands for it. -/
theorem depth_le_of_value? {tree value : Json} (h : value? tree = some value) :
    value.depth ≤ tree.depth := by
  induction tree using Json.induction generalizing value with
  | null | bool | number | string =>
      cases h
      exact Nat.le_refl _
  | array items ih =>
      obtain ⟨values, hvalues, rfl⟩ := Option.map_eq_some_iff.mp h
      have hle := depthItems_le_of_valueItems? (fun item hitem value => ih item hitem) hvalues
      simp only [depth]
      omega
  | object members ih =>
      simp only [value?] at h
      split at h
      · obtain ⟨-, -, literal, -, -, rfl⟩ := of_numeralValue? h
        exact Nat.zero_le _
      · obtain ⟨values, hvalues, rfl⟩ := Option.map_eq_some_iff.mp h
        have hle := depthMembers_le_of_valueMembers?
          (fun member hmember value => ih member hmember) hvalues
        have hcollect := depthMembers_le (collect_forall hle (P := fun value =>
          value.depth ≤ depthMembers members))
        simp only [depth]
        omega

end QueryLabel.Json
