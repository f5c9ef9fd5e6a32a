import QueryLabel.Proofs.Json.Soundness
import QueryLabel.Proofs.Json.Value

/-!
Documents.  What `parse` returns is what the grammar derives, in both directions
(`parse_eq_ok_iff`).
-/

namespace QueryLabel.Json

open Text (ascii)

/-- What may follow a document is white space. -/
theorem checkTrailing_eq_ok_iff {here : Position} {rest : List UInt8} :
    checkTrailing here rest = .ok () ↔ Spaces rest := by
  induction rest generalizing here with
  | nil => exact ⟨fun _ => spaces_nil, fun _ => rfl⟩
  | cons b rest ih =>
      unfold checkTrailing
      constructor
      · intro h
        split at h
        · next hspace => exact spaces_append (spaces_singleton hspace) (ih.mp h)
        · contradiction
      · intro h
        rw [if_pos (isSpace_of_spaces h b List.mem_cons_self)]
        exact ih.mpr fun c hc => h c (List.mem_cons_of_mem b hc)

theorem parse_of_read {document rest : List UInt8} {value : Json} {here : Position}
    (h : State.initial.read depthLimit .start document = .ok (value, here, rest))
    (hrest : Spaces rest) : parse document = .ok value := by
  simp [parse, h, bind, Except.bind, checkTrailing_eq_ok_iff.mpr hrest, pure, Except.pure]

theorem read_of_parse {document : List UInt8} {value : Json} (h : parse document = .ok value) :
    ∃ here rest, State.initial.read depthLimit .start document = .ok (value, here, rest) ∧
      Spaces rest := by
  unfold parse at h
  cases hread : State.initial.read depthLimit .start document with
  | error e => simp [hread, bind, Except.bind] at h
  | ok outcome =>
      obtain ⟨other, here, rest⟩ := outcome
      cases hcheck : checkTrailing here rest with
      | error e => simp [hread, hcheck, bind, Except.bind] at h
      | ok done =>
          simp only [hread, hcheck, bind, Except.bind, pure, Except.pure, Except.ok.injEq] at h
          subst h
          exact ⟨here, rest, rfl, checkTrailing_eq_ok_iff.mp hcheck⟩

/-- A spelling of a value between white space is read as that value, from the place where a
document begins. -/
theorem read_initial {a s rest : List UInt8} {tree value : Json} {limit : Nat} (ha : Spaces a)
    (h : Spells s tree) (hvalue : value? tree = some value) (hdepth : tree.depth ≤ limit)
    (hrest : Delimited rest) (here : Position) :
    State.initial.read limit here (a ++ s ++ rest) =
      .ok (value, here.past (a ++ s), rest) := by
  unfold State.initial
  rw [List.append_assoc, read_spaces ha, read_spells h hvalue hosts_nil hdepth hrest,
    Position.past_append]
  rfl

theorem delimited_of_spaces {w : List UInt8} (hw : Spaces w) : Delimited w := by
  have hnil : Delimited [] := by
    intro b hb
    cases hb
  have hspaces := delimited_spaces hw hnil
  rwa [List.append_nil] at hspaces

/-- The reader returns a value exactly for the documents of the grammar whose tree stands for
it. -/
theorem parse_eq_ok_iff {document : List UInt8} {value : Json} :
    parse document = .ok value ↔ ∃ tree, Document document tree ∧ value? tree = some value := by
  constructor
  · intro h
    obtain ⟨here, rest, hread, hrest⟩ := read_of_parse h
    have hinitial : Reached depthLimit [] State.initial := .slotted (.value .root)
    obtain ⟨p, hp, a, s, rfl, ha, tree, hs, hvalue, hdepth⟩ := whole_of_read hinitial hread
    rw [List.nil_append] at hp
    subst hp
    exact ⟨tree, .mk ha hs hrest hdepth, hvalue⟩
  · rintro ⟨tree, hdocument, hvalue⟩
    cases hdocument with
    | mk ha hs hb hdepth =>
        exact parse_of_read
          (read_initial ha hs hvalue hdepth (delimited_of_spaces hb) .start) hb

/-- What is read is plain, and no deeper than the reader allows. -/
theorem plain_of_parse {document : List UInt8} {value : Json} (h : parse document = .ok value) :
    Plain value ∧ value.depth ≤ depthLimit := by
  obtain ⟨tree, hdocument, hvalue⟩ := parse_eq_ok_iff.mp h
  cases hdocument with
  | mk ha hs hb hdepth =>
      exact ⟨plain_of_value? (normalNumbers_of_spells hs) hvalue,
        Nat.le_trans (depth_le_of_value? hvalue) hdepth⟩

/-- A document of the grammar without the numeral key is read as the value it stands for. -/
theorem parse_of_document {document : List UInt8} {tree : Json} (h : Document document tree)
    (hfree : NumeralFree tree) :
    ∃ value, value? tree = some value ∧ parse document = .ok value := by
  obtain ⟨value, hvalue⟩ := hfree.value?
  exact ⟨value, hvalue, parse_eq_ok_iff.mpr ⟨tree, h, hvalue⟩⟩

/-! ### Documents in which the numeral key cannot be spelled -/

/-- Neither a dollar sign nor a backslash. -/
def Undollared (s : List UInt8) : Prop :=
  ∀ b ∈ s, b ≠ ascii '$' ∧ b ≠ ascii '\\'

instance (s : List UInt8) : Decidable (Undollared s) :=
  List.decidableBAll _ s

theorem head?_numeralKey : numeralKey.head? = some '$' := by
  decide

/-- Without a dollar sign and without escapes no dollar sign is spelled. -/
theorem ne_dollar_of_undollared {s : List UInt8} {c : Char} (h : SpellsChar s c)
    (hs : Undollared s) : c ≠ '$' := by
  cases h with
  | plain hcontrol hquote hslash =>
      rintro rfl
      exact (hs (ascii '$') (by decide)).1 rfl
  | letter hmark => exact absurd rfl (hs (ascii '\\') (by simp)).2
  | unit hunit hlead htrail => exact absurd rfl (hs (ascii '\\') (by simp)).2
  | pair hunit hlead hr htrail => exact absurd rfl (hs (ascii '\\') (by simp)).2

theorem Undollared.of_append_left {s r : List UInt8} (h : Undollared (s ++ r)) :
    Undollared s := by
  intro b hb
  exact h b (List.mem_append_left r hb)

theorem Undollared.of_append_right {s r : List UInt8} (h : Undollared (s ++ r)) :
    Undollared r := by
  intro b hb
  exact h b (List.mem_append_right s hb)

theorem Undollared.of_cons {b : UInt8} {s : List UInt8} (h : Undollared (b :: s)) :
    Undollared s := by
  intro c hc
  exact h c (List.mem_cons_of_mem b hc)

/-- Without a dollar sign and without escapes no key is the numeral key. -/
theorem ne_numeralKey_of_undollared {s : List UInt8} {key : Text} (h : SpellsText s key)
    (hs : Undollared s) : key ≠ numeralKey := by
  intro hkey
  have hhead : key.head? = some '$' := by
    rw [hkey]
    exact head?_numeralKey
  cases h with
  | nil => cases hhead
  | cons hc htext =>
      have hne := ne_dollar_of_undollared hc hs.of_append_left
      exact hne (Option.some.inj hhead)

mutual

theorem numeralFree_of_spells {s : List UInt8} {tree : Json} (h : Spells s tree)
    (hs : Undollared s) : NumeralFree tree := by
  cases h with
  | null => exact .null
  | true | false => exact .bool
  | number => exact .number
  | string => exact .string
  | emptyArray hw => exact .array (List.forall_mem_nil _)
  | array h => exact .array (numeralFree_of_items h hs.of_cons.of_append_left)
  | emptyObject hw => exact .object (fun hkey => by cases hkey) (List.forall_mem_nil _)
  | object h =>
      obtain ⟨hfirst, hmembers⟩ := numeralFree_of_members h hs.of_cons.of_append_left
      exact .object hfirst hmembers

theorem numeralFree_of_items {s : List UInt8} {items : List Json} (h : SpellsItems s items)
    (hs : Undollared s) : ∀ item ∈ items, NumeralFree item := by
  cases h with
  | one ha h hb =>
      have hitem := numeralFree_of_spells h hs.of_append_left.of_append_right
      exact List.forall_mem_cons.mpr ⟨hitem, List.forall_mem_nil _⟩
  | cons ha h hb hr =>
      have hitem := numeralFree_of_spells h hs.of_append_left.of_append_left.of_append_right
      have hrest := numeralFree_of_items hr hs.of_append_right.of_cons
      exact List.forall_mem_cons.mpr ⟨hitem, hrest⟩

theorem numeralFree_of_member {s : List UInt8} {member : Text × Json}
    (h : SpellsMember s member) (hs : Undollared s) :
    member.1 ≠ numeralKey ∧ NumeralFree member.2 := by
  cases h with
  | mk ha hkey hb hc h hd =>
      simp only [List.append_assoc, List.cons_append] at hs
      have hs := hs.of_append_right.of_cons
      have hbehind := hs.of_append_right.of_cons.of_append_right.of_cons
      exact ⟨ne_numeralKey_of_undollared hkey hs.of_append_left,
        numeralFree_of_spells h hbehind.of_append_right.of_append_left⟩

theorem numeralFree_of_members {s : List UInt8} {members : Members}
    (h : SpellsMembers s members) (hs : Undollared s) :
    members.firstKey? ≠ some numeralKey ∧ ∀ member ∈ members, NumeralFree member.2 := by
  cases h with
  | one h =>
      obtain ⟨hkey, hmember⟩ := numeralFree_of_member h hs
      refine ⟨?_, List.forall_mem_cons.mpr ⟨hmember, List.forall_mem_nil _⟩⟩
      exact fun hfirst => hkey (Option.some.inj hfirst)
  | cons h hr =>
      obtain ⟨hkey, hmember⟩ := numeralFree_of_member h hs.of_append_left
      obtain ⟨-, hmembers⟩ := numeralFree_of_members hr hs.of_append_right.of_cons
      refine ⟨?_, List.forall_mem_cons.mpr ⟨hmember, hmembers⟩⟩
      exact fun hfirst => hkey (Option.some.inj hfirst)

end

/-- A document without a dollar sign and without escapes does not have the numeral key. -/
theorem numeralFree_of_undollared {document : List UInt8} {tree : Json}
    (h : Document document tree) (hs : Undollared document) : NumeralFree tree := by
  cases h with
  | mk ha h hb hdepth => exact numeralFree_of_spells h hs.of_append_left.of_append_right

end QueryLabel.Json
