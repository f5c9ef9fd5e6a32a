import QueryLabel.Proofs.Json.Printing
import QueryLabel.Proofs.Json.Unambiguous

/-!
Canonical spellings.  A value has exactly one spelling without white space in which nothing is
escaped that may stand for itself and every escape is as short as it can be (`canonical_iff`).  It
is the text that the compact style prints, and it tells values apart (`render_injective`).
-/

namespace QueryLabel.Json

/-- One character of a canonical string: as itself if it may, else by the letter of an escape if
there is one, else by its number in small hexadecimal digits. -/
inductive CanonicalChar : Text → Char → Prop
  | plain {c : Char} (hcontrol : 0x20 ≤ c.toNat) (hquote : c ≠ '"') (hslash : c ≠ '\\') :
      CanonicalChar [c] c
  | letter {mark c : Char} (h : (mark, c) ∈ letterEscapes) (hsolidus : c ≠ '/') :
      CanonicalChar ['\\', mark] c
  | number {c : Char} (hcontrol : c.toNat < 0x20) (hletter : ∀ mark, (mark, c) ∉ letterEscapes) :
      CanonicalChar
        ['\\', 'u', '0', '0', Nat.digitChar (c.toNat / 0x10), Nat.digitChar (c.toNat % 0x10)] c

/-- What stands between the quotes of a canonical string. -/
inductive CanonicalText : Text → Text → Prop
  | nil : CanonicalText [] []
  | cons {s r : Text} {c : Char} {text : Text} (hc : CanonicalChar s c)
      (htext : CanonicalText r text) : CanonicalText (s ++ r) (c :: text)

mutual

/-- A canonical value: no white space, and number literals as they are. -/
inductive Canonical : Text → Json → Prop
  | null : Canonical "null".toList .null
  | true : Canonical "true".toList (.bool .true)
  | false : Canonical "false".toList (.bool .false)
  | number {literal : Text} : Canonical literal (.number literal)
  | string {s text : Text} (h : CanonicalText s text) :
      Canonical ('"' :: s ++ ['"']) (.string text)
  | emptyArray : Canonical ['[', ']'] (.array [])
  | array {s : Text} {items : List Json} (h : CanonicalItems s items) :
      Canonical ('[' :: s ++ [']']) (.array items)
  | emptyObject : Canonical ['{', '}'] (.object [])
  | object {s : Text} {members : Members} (h : CanonicalMembers s members) :
      Canonical ('{' :: s ++ ['}']) (.object members)

/-- The items of a canonical array: one or more, in their order. -/
inductive CanonicalItems : Text → List Json → Prop
  | one {s : Text} {item : Json} (h : Canonical s item) : CanonicalItems s [item]
  | cons {s r : Text} {item : Json} {items : List Json} (h : Canonical s item)
      (hr : CanonicalItems r items) : CanonicalItems (s ++ ',' :: r) (item :: items)

/-- A member of a canonical object. -/
inductive CanonicalMember : Text → Text × Json → Prop
  | mk {k s key : Text} {value : Json} (hkey : CanonicalText k key) (h : Canonical s value) :
      CanonicalMember ('"' :: k ++ '"' :: ':' :: s) (key, value)

/-- The members of a canonical object: one or more, in their order. -/
inductive CanonicalMembers : Text → Members → Prop
  | one {s : Text} {member : Text × Json} (h : CanonicalMember s member) :
      CanonicalMembers s [member]
  | cons {s r : Text} {member : Text × Json} {members : Members} (h : CanonicalMember s member)
      (hr : CanonicalMembers r members) : CanonicalMembers (s ++ ',' :: r) (member :: members)

end

/-! ### Strings -/

/-- The letters of escapes, and what is printed for their characters. -/
theorem escapeChar_letter {mark c : Char} (h : (mark, c) ∈ letterEscapes) (hsolidus : c ≠ '/') :
    escapeChar .compact c = ['\\', mark] := by
  have hall : ∀ escape ∈ letterEscapes, escape.2 ≠ '/' →
      escapeChar .compact escape.2 = ['\\', escape.1] := by
    decide
  exact hall (mark, c) h hsolidus

theorem escapeChar_plain {c : Char} (hcontrol : 0x20 ≤ c.toNat) (hquote : c ≠ '"')
    (hslash : c ≠ '\\') : escapeChar .compact c = [c] := by
  have hnone : neededEscape? c = none := by
    rcases neededEscape?_cases c with ⟨mark, hsome, hmem, -⟩ | ⟨-, hlt⟩ | ⟨hnone, -⟩
    · have hall : ∀ escape ∈ letterEscapes, 0x20 ≤ escape.2.toNat → escape.2 ≠ '"' →
          escape.2 ≠ '\\' → neededEscape? escape.2 = none := by
        decide
      exact hall (mark, c) hmem hcontrol hquote hslash
    · omega
    · exact hnone
  rw [escapeChar, hnone]

theorem unitEscape_control {n : Nat} (h : n < 0x20) :
    unitEscape n = ['\\', 'u', '0', '0', Nat.digitChar (n / 0x10), Nat.digitChar (n % 0x10)] := by
  have hall : ∀ n : Fin 0x20, unitEscape n.val =
      ['\\', 'u', '0', '0', Nat.digitChar (n.val / 0x10), Nat.digitChar (n.val % 0x10)] := by
    decide
  exact hall ⟨n, h⟩

/-- What the compact style prints for a character is the one canonical spelling of it. -/
theorem canonicalChar_iff {s : Text} {c : Char} :
    CanonicalChar s c ↔ s = escapeChar .compact c := by
  constructor
  · intro h
    cases h with
    | plain hcontrol hquote hslash => exact (escapeChar_plain hcontrol hquote hslash).symm
    | letter h hsolidus => exact (escapeChar_letter h hsolidus).symm
    | number hcontrol hletter =>
        rcases neededEscape?_cases c with ⟨mark, -, hmem, -⟩ | ⟨hsome, -⟩ | ⟨-, hle, -⟩
        · exact absurd hmem (hletter mark)
        · rw [escapeChar, hsome, unitEscape_control hcontrol]
        · omega
  · rintro rfl
    rcases neededEscape?_cases c with ⟨mark, hsome, hmem, -⟩ | ⟨hsome, hcontrol⟩ |
      ⟨-, hcontrol, hquote, hslash⟩
    · have hsolidus : c ≠ '/' := by
        rintro rfl
        cases hsome
      rw [escapeChar_letter hmem hsolidus]
      exact .letter hmem hsolidus
    · have hletter : ∀ mark, (mark, c) ∉ letterEscapes := by
        intro mark hmem
        have hall : ∀ escape ∈ letterEscapes, neededEscape? escape.2 ≠
            some (unitEscape escape.2.toNat) := by
          decide
        exact hall (mark, c) hmem hsome
      rw [escapeChar, hsome, unitEscape_control hcontrol]
      exact .number hcontrol hletter
    · rw [escapeChar_plain hcontrol hquote hslash]
      exact .plain hcontrol hquote hslash

theorem canonicalText_iff {s text : Text} :
    CanonicalText s text ↔ s = text.flatMap (escapeChar .compact) := by
  constructor
  · intro h
    induction h with
    | nil => rfl
    | cons hc htext ih => rw [canonicalChar_iff.mp hc, ih, List.flatMap_cons]
  · rintro rfl
    induction text with
    | nil => exact .nil
    | cons c text ih => exact .cons (canonicalChar_iff.mpr rfl) ih

/-! ### Values -/

theorem CanonicalItems.ne_nil {s : Text} {items : List Json} (h : CanonicalItems s items) :
    items ≠ [] := by
  cases h <;> exact List.cons_ne_nil _ _

theorem CanonicalMembers.ne_nil {s : Text} {members : Members} (h : CanonicalMembers s members) :
    members ≠ [] := by
  cases h <;> exact List.cons_ne_nil _ _

theorem renderItems_cons (item : Json) {items : List Json} (h : items ≠ []) :
    renderItems .compact (item :: items) =
      render .compact item ++ ',' :: renderItems .compact items := by
  cases items with
  | nil => exact absurd rfl h
  | cons next rest => simp [renderItems, Style.itemSeparator]

theorem renderMembers_cons (member : Text × Json) {members : Members} (h : members ≠ []) :
    renderMembers .compact (member :: members) =
      renderMember .compact member ++ ',' :: renderMembers .compact members := by
  cases members with
  | nil => exact absurd rfl h
  | cons next rest => simp [renderMembers, Style.itemSeparator]

theorem renderMember_compact (key : Text) (value : Json) :
    renderMember .compact (key, value) =
      '"' :: key.flatMap (escapeChar .compact) ++ '"' :: ':' :: render .compact value := by
  simp [renderMember, renderString, Style.keySeparator]

mutual

/-- A canonical spelling is what the compact style prints. -/
theorem eq_render_of_canonical {s : Text} {value : Json} (h : Canonical s value) :
    s = render .compact value := by
  cases h with
  | null | true | false | number | emptyArray | emptyObject => rfl
  | string h => rw [canonicalText_iff.mp h, render, renderString]
  | array h => rw [eq_renderItems_of_canonical h, render]
  | object h => rw [eq_renderMembers_of_canonical h, render]

theorem eq_renderItems_of_canonical {s : Text} {items : List Json} (h : CanonicalItems s items) :
    s = renderItems .compact items := by
  cases h with
  | one h => exact eq_render_of_canonical h
  | cons h hr =>
      rw [renderItems_cons _ hr.ne_nil, eq_render_of_canonical h, eq_renderItems_of_canonical hr]

theorem eq_renderMember_of_canonical {s : Text} {member : Text × Json}
    (h : CanonicalMember s member) : s = renderMember .compact member := by
  cases h with
  | mk hkey h => rw [renderMember_compact, canonicalText_iff.mp hkey, eq_render_of_canonical h]

theorem eq_renderMembers_of_canonical {s : Text} {members : Members}
    (h : CanonicalMembers s members) : s = renderMembers .compact members := by
  cases h with
  | one h => exact eq_renderMember_of_canonical h
  | cons h hr =>
      rw [renderMembers_cons _ hr.ne_nil, eq_renderMember_of_canonical h,
        eq_renderMembers_of_canonical hr]

end

theorem canonicalItems_render {item : Json} {rest : List Json}
    (h : ∀ other ∈ item :: rest, Canonical (render .compact other) other) :
    CanonicalItems (renderItems .compact (item :: rest)) (item :: rest) := by
  induction rest generalizing item with
  | nil => exact .one (h item List.mem_cons_self)
  | cons next rest ih =>
      obtain ⟨hitem, hrest⟩ := List.forall_mem_cons.mp h
      rw [renderItems_cons item (List.cons_ne_nil next rest)]
      exact .cons hitem (ih hrest)

theorem canonicalMembers_render {member : Text × Json} {rest : Members}
    (h : ∀ other ∈ member :: rest, Canonical (render .compact other.2) other.2) :
    CanonicalMembers (renderMembers .compact (member :: rest)) (member :: rest) := by
  have hmember : ∀ other ∈ member :: rest, CanonicalMember (renderMember .compact other) other := by
    rintro ⟨key, value⟩ hother
    rw [renderMember_compact]
    exact .mk (canonicalText_iff.mpr rfl) (h _ hother)
  clear h
  induction rest generalizing member with
  | nil => exact .one (hmember member List.mem_cons_self)
  | cons next rest ih =>
      obtain ⟨hfirst, hrest⟩ := List.forall_mem_cons.mp hmember
      rw [renderMembers_cons member (List.cons_ne_nil next rest)]
      exact .cons hfirst (ih hrest)

/-- What the compact style prints is canonical. -/
theorem canonical_render (value : Json) : Canonical (render .compact value) value := by
  induction value using Json.induction with
  | null => exact .null
  | bool b =>
      cases b with
      | true => exact .true
      | false => exact .false
  | number literal => exact .number
  | string text => exact .string (canonicalText_iff.mpr rfl)
  | array items ih =>
      cases items with
      | nil => exact .emptyArray
      | cons item rest => exact .array (canonicalItems_render ih)
  | object members ih =>
      cases members with
      | nil => exact .emptyObject
      | cons member rest => exact .object (canonicalMembers_render ih)

/-- The text that the compact style prints is the one canonical spelling of a value. -/
theorem canonical_iff {s : Text} {value : Json} :
    Canonical s value ↔ s = render .compact value := by
  constructor
  · exact eq_render_of_canonical
  · rintro rfl
    exact canonical_render value

/-- Values with literals in normal form are told apart by what the compact style prints. -/
theorem render_injective {value value' : Json} (h : EveryNumber NormalLiteral value)
    (h' : EveryNumber NormalLiteral value') (heq : render .compact value = render .compact value') :
    value = value' := by
  have hspells := spells_render_compact h
  rw [heq] at hspells
  exact spells_unique hspells (spells_render_compact h')

/-! ### Values without repeated keys -/

/-- No object has a key twice. -/
inductive DistinctKeys : Json → Prop
  | null : DistinctKeys .null
  | bool {b : Bool} : DistinctKeys (.bool b)
  | number {literal : Text} : DistinctKeys (.number literal)
  | string {text : Text} : DistinctKeys (.string text)
  | array {items : List Json} (h : ∀ item ∈ items, DistinctKeys item) :
      DistinctKeys (.array items)
  | object {members : Members} (hkeys : members.Distinct)
      (h : ∀ member ∈ members, DistinctKeys member.2) : DistinctKeys (.object members)

/-- Such a value is plain if no object has the numeral key first. -/
theorem DistinctKeys.plain {value : Json} (h : DistinctKeys value)
    (hnormal : EveryNumber NormalLiteral value) (hfree : NumeralFree value) : Plain value := by
  induction h with
  | null => exact .null
  | bool => exact .bool
  | number =>
      cases hnormal with
      | number hliteral => exact .number hliteral
  | string => exact .string
  | array hitems ih =>
      cases hnormal with
      | array hnormal =>
          cases hfree with
          | array hfree =>
              exact .array fun item hitem => ih item hitem (hnormal item hitem) (hfree item hitem)
  | object hkeys hmembers ih =>
      cases hnormal with
      | object hnormal =>
          cases hfree with
          | object hfirst hfree =>
              exact .object hfirst hkeys fun member hmember =>
                ih member hmember (hnormal member hmember) (hfree member hmember)

theorem Plain.numeralFree {value : Json} (h : Plain value) : NumeralFree value := by
  induction h with
  | null => exact .null
  | bool => exact .bool
  | number => exact .number
  | string => exact .string
  | array hitems ih => exact .array ih
  | object hfirst hkeys hmembers ih => exact .object hfirst ih

end QueryLabel.Json
