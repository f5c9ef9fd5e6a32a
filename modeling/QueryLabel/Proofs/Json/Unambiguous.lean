import QueryLabel.Proofs.Json.Document

/-!
The grammar is unambiguous: a document has one derivation (`document_unique`).  The reader itself
settles this for everything but containers, which are read from spelling to spelling
(`Settles`).  So what a document stands for is what the reader makes of its one tree
(`parse_document`).
-/

namespace QueryLabel.Json

open Text (ascii)

/-! ### Scalars and texts -/

section Scalars

variable {s s' r r' : List UInt8} {tree tree' : Json}

theorem value?_of_depth_zero (h : tree.depth = 0) : value? tree = some tree := by
  cases tree with
  | null | bool | number | string => rfl
  | array | object => cases h

/-- A scalar is read without opening a container. -/
theorem read_scalar (h : Spells s tree) (hdepth : tree.depth = 0) (hr : Delimited r) :
    ∃ here, State.initial.read 0 .start (s ++ r) = .ok (tree, here, r) := by
  refine ⟨Position.start.past s, ?_⟩
  unfold State.initial
  rw [read_spells h (value?_of_depth_zero hdepth) hosts_nil (by simp [hdepth]) hr]
  rfl

/-- A container is not. -/
theorem read_container (h : Spells s tree) (hdepth : tree.depth ≠ 0) :
    ∃ e, State.initial.read 0 .start (s ++ r) = .error e := by
  cases h with
  | null | true | false | number | string => exact absurd rfl hdepth
  | emptyArray | array | emptyObject | object => exact ⟨_, rfl⟩

/-- Bytes that begin with a scalar begin with nothing else. -/
theorem scalar_unique (h : Spells s tree) (hdepth : tree.depth = 0) (h' : Spells s' tree')
    (hr : Delimited r) (hr' : Delimited r') (heq : s ++ r = s' ++ r') :
    s = s' ∧ tree = tree' := by
  obtain ⟨here, hread⟩ := read_scalar h hdepth hr
  by_cases hdepth' : tree'.depth = 0
  · obtain ⟨here', hread'⟩ := read_scalar h' hdepth' hr'
    rw [heq, hread'] at hread
    cases hread
    exact ⟨List.append_cancel_right heq, rfl⟩
  · obtain ⟨e, hread'⟩ := read_container (r := r') h' hdepth'
    rw [heq, hread'] at hread
    cases hread

theorem text_unique {text text' : Text} (h : SpellsText s text) (h' : SpellsText s' text')
    (heq : s ++ ascii '"' :: r = s' ++ ascii '"' :: r') : s = s' ∧ text = text' ∧ r = r' := by
  have hread : State.read 0 ⟨.string .value {}, []⟩ .start (s ++ ascii '"' :: r) = _ :=
    read_string h
  rw [heq, read_string h'] at hread
  simp only [resume, complete, Except.ok.injEq, Prod.mk.injEq, Json.string.injEq] at hread
  obtain ⟨rfl, -, rfl⟩ := hread
  exact ⟨List.append_cancel_right heq, rfl, rfl⟩

end Scalars

/-! ### Between tokens -/

/-- A byte that ends a value and is no white space. -/
structure Ends (b : UInt8) : Prop where
  endsNumber : NumberScan.EndsNumber b
  notSpace : isSpace b = false

theorem ends_comma : Ends (ascii ',') := ⟨endsNumber_comma, rfl⟩

theorem ends_bracket : Ends (ascii ']') := ⟨endsNumber_bracket, rfl⟩

theorem ends_brace : Ends (ascii '}') := ⟨endsNumber_brace, rfl⟩

section Between

variable {a a' b b' r r' : List UInt8} {x x' : UInt8}

theorem spaces_unique (ha : Spaces a) (ha' : Spaces a') (hx : isSpace x = false)
    (hx' : isSpace x' = false) (heq : a ++ x :: r = a' ++ x' :: r') :
    a = a' ∧ x = x' ∧ r = r' := by
  induction a generalizing a' with
  | nil =>
      cases a' with
      | nil => exact ⟨rfl, List.cons_eq_cons.mp heq⟩
      | cons c a' =>
          have hc := isSpace_of_spaces ha' c List.mem_cons_self
          rw [← (List.cons_eq_cons.mp heq).1, hx] at hc
          cases hc
  | cons c a ih =>
      have hc := isSpace_of_spaces ha c List.mem_cons_self
      cases a' with
      | nil =>
          rw [(List.cons_eq_cons.mp heq).1, hx'] at hc
          cases hc
      | cons c' a' =>
          obtain ⟨rfl, htail⟩ := List.cons_eq_cons.mp heq
          obtain ⟨rfl, hrest⟩ := ih (fun d hd => ha d (List.mem_cons_of_mem _ hd))
            (fun d hd => ha' d (List.mem_cons_of_mem _ hd)) htail
          exact ⟨rfl, hrest⟩

/-- All bytes that begin with a spelling of the tree settle which one, and that it is no other
tree. -/
def Settles (tree : Json) : Prop :=
  ∀ {s s' r r' : List UInt8} {tree' : Json}, Spells s tree → Spells s' tree' → Delimited r →
    Delimited r' → s ++ r = s' ++ r' → s = s' ∧ tree = tree'

/-- A value between white space, up to the byte that ends it. -/
theorem padded_unique {s s' : List UInt8} {tree tree' : Json} (hsettles : Settles tree)
    (ha : Spaces a) (h : Spells s tree) (hb : Spaces b) (hx : Ends x) (ha' : Spaces a')
    (h' : Spells s' tree') (hb' : Spaces b') (hx' : Ends x')
    (heq : a ++ s ++ b ++ x :: r = a' ++ s' ++ b' ++ x' :: r') :
    a ++ s ++ b = a' ++ s' ++ b' ∧ tree = tree' ∧ x = x' ∧ r = r' := by
  obtain ⟨c, t, rfl, hc, -⟩ := head_of_spells h
  obtain ⟨c', t', rfl, hc', -⟩ := head_of_spells h'
  have hparts : a ++ c :: (t ++ b ++ x :: r) = a' ++ c' :: (t' ++ b' ++ x' :: r') := by
    simpa using heq
  obtain ⟨rfl, rfl, htail⟩ := spaces_unique ha ha' hc hc' hparts
  have hvalue : (c :: t) ++ (b ++ x :: r) = (c :: t') ++ (b' ++ x' :: r') := by simpa using htail
  obtain ⟨hspelling, rfl⟩ := hsettles h h'
    (delimited_spaces hb (delimited_cons hx.endsNumber r))
    (delimited_spaces hb' (delimited_cons hx'.endsNumber r')) hvalue
  rw [hspelling] at hvalue
  obtain ⟨rfl, hend⟩ := spaces_unique hb hb' hx.notSpace hx'.notSpace
    (List.append_cancel_left hvalue)
  exact ⟨by rw [hspelling], rfl, hend⟩

end Between

/-! ### Containers -/

section Containers

variable {s s' r r' : List UInt8}

theorem items_unique {items items' : List Json} (hsettles : ∀ item ∈ items, Settles item)
    (h : SpellsItems s items) (h' : SpellsItems s' items')
    (heq : s ++ ascii ']' :: r = s' ++ ascii ']' :: r') : s = s' ∧ items = items' := by
  induction items generalizing s s' items' with
  | nil => cases h
  | cons item items ih =>
      obtain ⟨hitem, hitems⟩ := List.forall_mem_cons.mp hsettles
      cases h with
      | one ha h hb =>
          cases h' with
          | one ha' h' hb' =>
              obtain ⟨hs, rfl, -⟩ :=
                padded_unique hitem ha h hb ends_bracket ha' h' hb' ends_bracket heq
              exact ⟨hs, rfl⟩
          | cons ha' h' hb' hr' =>
              obtain ⟨-, -, hends, -⟩ := padded_unique hitem ha h hb ends_bracket ha' h' hb'
                ends_comma (by simpa using heq)
              cases hends
      | cons ha h hb hr =>
          cases h' with
          | one ha' h' hb' =>
              obtain ⟨-, -, hends, -⟩ := padded_unique hitem ha h hb ends_comma ha' h' hb'
                ends_bracket (by simpa using heq)
              cases hends
          | cons ha' h' hb' hr' =>
              obtain ⟨hs, rfl, -, hrest⟩ := padded_unique hitem ha h hb ends_comma ha' h' hb'
                ends_comma (by simpa using heq)
              obtain ⟨rfl, rfl⟩ := ih hitems hr hr' hrest
              exact ⟨by rw [hs], rfl⟩

theorem member_unique {member member' : Text × Json} {x x' : UInt8}
    (hsettles : Settles member.2) (h : SpellsMember s member) (hx : Ends x)
    (h' : SpellsMember s' member') (hx' : Ends x') (heq : s ++ x :: r = s' ++ x' :: r') :
    s = s' ∧ member = member' ∧ x = x' ∧ r = r' := by
  obtain @⟨a, k, b, c, s, d, key, tree, ha, hkey, hb, hc, h, hd⟩ := h
  obtain @⟨a', k', b', c', s', d', key', tree', ha', hkey', hb', hc', h', hd'⟩ := h'
  simp only [List.append_assoc, List.cons_append] at heq
  obtain ⟨rfl, -, hbehindQuote⟩ := spaces_unique ha ha' rfl rfl heq
  obtain ⟨rfl, rfl, hbehindKey⟩ := text_unique hkey hkey' hbehindQuote
  obtain ⟨rfl, -, hbehindColon⟩ := spaces_unique hb hb' rfl rfl hbehindKey
  obtain ⟨hs, rfl, hends⟩ := padded_unique hsettles hc h hd hx hc' h' hd' hx'
    (by simpa using hbehindColon)
  simp only [List.append_assoc] at hs
  exact ⟨by simp [hs], rfl, hends⟩

theorem members_unique {members members' : Members}
    (hsettles : ∀ member ∈ members, Settles member.2) (h : SpellsMembers s members)
    (h' : SpellsMembers s' members') (heq : s ++ ascii '}' :: r = s' ++ ascii '}' :: r') :
    s = s' ∧ members = members' := by
  induction members generalizing s s' members' with
  | nil => cases h
  | cons member members ih =>
      obtain ⟨hmember, hmembers⟩ := List.forall_mem_cons.mp hsettles
      cases h with
      | one h =>
          cases h' with
          | one h' =>
              obtain ⟨hs, rfl, -⟩ := member_unique hmember h ends_brace h' ends_brace heq
              exact ⟨hs, rfl⟩
          | cons h' hr' =>
              obtain ⟨-, -, hends, -⟩ :=
                member_unique hmember h ends_brace h' ends_comma (by simpa using heq)
              cases hends
      | cons h hr =>
          cases h' with
          | one h' =>
              obtain ⟨-, -, hends, -⟩ :=
                member_unique hmember h ends_comma h' ends_brace (by simpa using heq)
              cases hends
          | cons h' hr' =>
              obtain ⟨rfl, rfl, -, hrest⟩ :=
                member_unique hmember h ends_comma h' ends_comma (by simpa using heq)
              obtain ⟨rfl, rfl⟩ := ih hmembers hr hr' hrest
              exact ⟨rfl, rfl⟩

/-- Items begin with a byte that does not close the array. -/
theorem head_of_items {items : List Json} (h : SpellsItems s items) :
    ∃ a c t, s = a ++ c :: t ∧ Spaces a ∧ isSpace c = false ∧ c ≠ ascii ']' := by
  cases h with
  | @one a s b item ha h hb =>
      obtain ⟨c, t, rfl, hc, hclose⟩ := head_of_spells h
      exact ⟨a, c, t ++ b, by simp, ha, hc, hclose⟩
  | @cons a s b r item items ha h hb hr =>
      obtain ⟨c, t, rfl, hc, hclose⟩ := head_of_spells h
      exact ⟨a, c, t ++ (b ++ ascii ',' :: r), by simp, ha, hc, hclose⟩

/-- A member begins with a quote. -/
theorem head_of_member {member : Text × Json} (h : SpellsMember s member) :
    ∃ a t, s = a ++ ascii '"' :: t ∧ Spaces a := by
  obtain @⟨a, k, b, c, s, d, key, tree, ha, hkey, hb, hc, h, hd⟩ := h
  exact ⟨a, k ++ ascii '"' :: b ++ ascii ':' :: c ++ s ++ d, by simp, ha⟩

theorem head_of_members {members : Members} (h : SpellsMembers s members) :
    ∃ a t, s = a ++ ascii '"' :: t ∧ Spaces a := by
  cases h with
  | one h => exact head_of_member h
  | @cons s r member members h hr =>
      obtain ⟨a, t, rfl, ha⟩ := head_of_member h
      exact ⟨a, t ++ ascii ',' :: r, by simp, ha⟩

theorem spaces_ne_items {w : List UInt8} {items : List Json} (hw : Spaces w)
    (h : SpellsItems s items) : w ++ ascii ']' :: r ≠ s ++ ascii ']' :: r' := by
  obtain ⟨a, c, t, rfl, ha, hc, hclose⟩ := head_of_items h
  intro heq
  have hparts : w ++ ascii ']' :: r = a ++ c :: (t ++ ascii ']' :: r') := by simpa using heq
  exact hclose (spaces_unique hw ha rfl hc hparts).2.1.symm

theorem spaces_ne_members {w : List UInt8} {members : Members} (hw : Spaces w)
    (h : SpellsMembers s members) : w ++ ascii '}' :: r ≠ s ++ ascii '}' :: r' := by
  obtain ⟨a, t, rfl, ha⟩ := head_of_members h
  intro heq
  have hparts : w ++ ascii '}' :: r = a ++ ascii '"' :: (t ++ ascii '}' :: r') := by
    simpa using heq
  cases (spaces_unique hw ha rfl rfl hparts).2.1

theorem array_unique {items items' : List Json} (hsettles : ∀ item ∈ items, Settles item)
    (h : Spells s (.array items)) (h' : Spells s' (.array items')) (heq : s ++ r = s' ++ r') :
    s = s' ∧ items = items' := by
  cases h with
  | emptyArray hw =>
      cases h' with
      | emptyArray hw' =>
          obtain ⟨rfl, -⟩ := spaces_unique hw hw' rfl rfl (by simpa using heq)
          exact ⟨rfl, rfl⟩
      | array h' => exact absurd (by simpa using heq) (spaces_ne_items hw h')
  | array h =>
      cases h' with
      | emptyArray hw' => exact absurd (by simpa using heq.symm) (spaces_ne_items hw' h)
      | array h' =>
          obtain ⟨rfl, rfl⟩ := items_unique hsettles h h' (by simpa using heq)
          exact ⟨rfl, rfl⟩

theorem object_unique {members members' : Members}
    (hsettles : ∀ member ∈ members, Settles member.2) (h : Spells s (.object members))
    (h' : Spells s' (.object members')) (heq : s ++ r = s' ++ r') :
    s = s' ∧ members = members' := by
  cases h with
  | emptyObject hw =>
      cases h' with
      | emptyObject hw' =>
          obtain ⟨rfl, -⟩ := spaces_unique hw hw' rfl rfl (by simpa using heq)
          exact ⟨rfl, rfl⟩
      | object h' => exact absurd (by simpa using heq) (spaces_ne_members hw h')
  | object h =>
      cases h' with
      | emptyObject hw' => exact absurd (by simpa using heq.symm) (spaces_ne_members hw' h)
      | object h' =>
          obtain ⟨rfl, rfl⟩ := members_unique hsettles h h' (by simpa using heq)
          exact ⟨rfl, rfl⟩

theorem array_ne_object {items : List Json} {members : Members} (h : Spells s (.array items))
    (h' : Spells s' (.object members)) : s ++ r ≠ s' ++ r' := by
  intro heq
  cases h <;> cases h' <;> cases (List.cons_eq_cons.mp heq).1

end Containers

/-! ### Documents -/

theorem settles (tree : Json) : Settles tree := by
  induction tree using Json.induction with
  | null | bool | number | string =>
      intro s s' r r' tree' h h' hr hr' heq
      exact scalar_unique h rfl h' hr hr' heq
  | array items ih =>
      intro s s' r r' tree' h h' hr hr' heq
      cases tree' with
      | null | bool | number | string =>
          cases (scalar_unique h' rfl h hr' hr heq.symm).2
      | array items' =>
          obtain ⟨rfl, rfl⟩ := array_unique ih h h' heq
          exact ⟨rfl, rfl⟩
      | object members => exact absurd heq (array_ne_object h h')
  | object members ih =>
      intro s s' r r' tree' h h' hr hr' heq
      cases tree' with
      | null | bool | number | string =>
          cases (scalar_unique h' rfl h hr' hr heq.symm).2
      | array items => exact absurd heq.symm (array_ne_object h' h)
      | object members' =>
          obtain ⟨rfl, rfl⟩ := object_unique ih h h' heq
          exact ⟨rfl, rfl⟩

/-- A value has one derivation. -/
theorem spells_unique {s : List UInt8} {tree tree' : Json} (h : Spells s tree)
    (h' : Spells s tree') : tree = tree' :=
  (settles tree h h' (delimited_of_spaces spaces_nil) (delimited_of_spaces spaces_nil) rfl).2

/-- A value with white space around it has one derivation. -/
theorem spaced_unique {a s b a' s' b' : List UInt8} {tree tree' : Json} (ha : Spaces a)
    (h : Spells s tree) (hb : Spaces b) (ha' : Spaces a') (h' : Spells s' tree')
    (hb' : Spaces b') (hsame : a ++ s ++ b = a' ++ s' ++ b') : tree = tree' := by
  -- a byte behind both, for the value to end at
  have heq : a ++ s ++ b ++ ascii ',' :: [] = a' ++ s' ++ b' ++ ascii ',' :: [] := by rw [hsame]
  exact (padded_unique (settles tree) ha h hb ends_comma ha' h' hb' ends_comma heq).2.1

/-- A document has one derivation. -/
theorem document_unique {document : List UInt8} {tree tree' : Json} (h : Document document tree)
    (h' : Document document tree') : tree = tree' := by
  generalize hsame : document = document' at h'
  obtain @⟨a, s, b, tree, ha, hs, hb, -⟩ := h
  obtain @⟨a', s', b', tree', ha', hs', hb', -⟩ := h'
  exact spaced_unique ha hs hb ha' hs' hb' hsame

/-- A document that spells a value is a document of that value, and no deeper than is allowed. -/
theorem eq_of_document {document : List UInt8} {tree tree' : Json} (h : Document document tree)
    (h' : Spells document tree') : tree = tree' ∧ tree.depth ≤ depthLimit := by
  obtain @⟨a, s, b, tree, ha, hs, hb, hdepth⟩ := h
  exact ⟨spaced_unique ha hs hb spaces_nil h' spaces_nil (by simp), hdepth⟩

/-- What a document is read as is what its tree stands for. -/
theorem parse_document {document : List UInt8} {tree value : Json} (h : Document document tree) :
    parse document = .ok value ↔ value? tree = some value := by
  rw [parse_eq_ok_iff]
  constructor
  · rintro ⟨tree', h', hvalue⟩
    rwa [document_unique h h']
  · intro hvalue
    exact ⟨tree, h, hvalue⟩

end QueryLabel.Json
