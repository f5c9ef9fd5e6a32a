import QueryLabel.Proofs.Json.Document
import QueryLabel.Proofs.Json.NumberText

/-!
What is printed is read again.  The text of a value spells the value with its numbers spelled
anew (`spells_render`), in either style: separators may have white space behind them, and every
escape stands for the character that was escaped.
-/

namespace QueryLabel.Json

open Text (ascii fourDigits)

theorem encode_singleton (c : Char) : Utf8.encode [c] = Utf8.encodeChar c := by
  simp [Utf8.encode_cons]

/-- The bytes of a text between two ASCII characters. -/
theorem encode_between {c d : Char} (hc : c.toNat < 0x80) (hd : d.toNat < 0x80) (text : Text) :
    Utf8.encode (c :: text ++ [d]) = ascii c :: Utf8.encode text ++ [ascii d] := by
  rw [Utf8.encode_append, Utf8.encode_cons, encode_singleton, Utf8.encodeChar_of_lt hc,
    Utf8.encodeChar_of_lt hd]
  rfl

/-! ### Strings -/

theorem encode_digitChar {d : Nat} (h : d < 0x10) :
    Utf8.encodeChar d.digitChar = [ascii d.digitChar] ∧
      Text.hexDigit? (byteChar (ascii d.digitChar)) = some d := by
  have hall : ∀ d : Fin 0x10, Utf8.encodeChar d.val.digitChar = [ascii d.val.digitChar] ∧
      Text.hexDigit? (byteChar (ascii d.val.digitChar)) = some d.val := by
    decide
  exact hall ⟨d, h⟩

/-- Four digits spell the unit that they were made from. -/
theorem hexUnit_fourDigits {n : Nat} (h : n < 0x10000) :
    HexUnit (Utf8.encode (fourDigits n)) n := by
  have ha := encode_digitChar (show n / 0x1000 < 0x10 by omega)
  have hb := encode_digitChar (show n / 0x100 % 0x10 < 0x10 by omega)
  have hc := encode_digitChar (show n / 0x10 % 0x10 < 0x10 by omega)
  have hd := encode_digitChar (show n % 0x10 < 0x10 by omega)
  have hunit := HexUnit.mk ha.2 hb.2 hc.2 hd.2
  have hvalue : n / 0x1000 * 0x1000 + n / 0x100 % 0x10 * 0x100 + n / 0x10 % 0x10 * 0x10 +
      n % 0x10 = n := by omega
  rw [hvalue] at hunit
  simpa [fourDigits, Utf8.encode_cons, ha.1, hb.1, hc.1, hd.1] using hunit

theorem unitEscape_eq {n : Nat} (h : n < 0x10000) :
    unitEscape n = '\\' :: 'u' :: fourDigits n := by
  simp only [unitEscape, Text.padded_hexadecimal h]

theorem encode_unitEscape {n : Nat} (h : n < 0x10000) :
    Utf8.encode (unitEscape n) = ascii '\\' :: ascii 'u' :: Utf8.encode (fourDigits n) := by
  rw [unitEscape_eq h]
  rfl

theorem toNat_cases (c : Char) : c.toNat < 0xD800 ∨ 0xDFFF < c.toNat := by
  rcases c.valid with h | h
  · exact Or.inl h
  · exact Or.inr h.1

/-- No character is half of a pair. -/
theorem not_surrogate (c : Char) : isLead c.toNat = false ∧ isTrail c.toNat = false := by
  rcases toNat_cases c with hlow | hhigh
  · simp only [isLead, isTrail, Bool.and_eq_false_iff, decide_eq_false_iff_not]
    omega
  · simp only [isLead, isTrail, Bool.and_eq_false_iff, decide_eq_false_iff_not]
    omega

/-- A character beyond the basic plane is the pair of its two units. -/
theorem exists_pair {c : Char} (h : 0x10000 ≤ c.toNat) :
    ∃ lead trail, utf16Units c = [lead, trail] ∧ isLead lead = true ∧ isTrail trail = true ∧
      pairChar lead trail = c := by
  have hlt := Utf8.toNat_lt c
  refine ⟨0xD800 + (c.toNat - 0x10000) / 0x400, 0xDC00 + (c.toNat - 0x10000) % 0x400, ?_, ?_, ?_,
    ?_⟩
  · simp [utf16Units, Nat.not_lt.mpr h]
  · simp only [isLead, Bool.and_eq_true, decide_eq_true_eq]
    omega
  · simp only [isTrail, Bool.and_eq_true, decide_eq_true_eq]
    omega
  · have hnat : 0x10000 + (0xD800 + (c.toNat - 0x10000) / 0x400 - 0xD800) * 0x400 +
        (0xDC00 + (c.toNat - 0x10000) % 0x400 - 0xDC00) = c.toNat := by omega
    rw [pairChar, hnat, Char.ofNat_toNat]

theorem lt_of_isTrail {unit : Nat} (h : isTrail unit = true) : unit < 0x10000 := by
  simp only [isTrail, Bool.and_eq_true, decide_eq_true_eq] at h
  omega

theorem lt_of_isLead {unit : Nat} (h : isLead unit = true) : unit < 0x10000 := by
  simp only [isLead, Bool.and_eq_true, decide_eq_true_eq] at h
  omega

/-- One unit spells a character of the basic plane. -/
theorem spellsChar_unit {c : Char} (h : c.toNat < 0x10000) :
    SpellsChar (Utf8.encode (unitEscape c.toNat)) c := by
  have hunit := SpellsChar.unit (hexUnit_fourDigits h) (not_surrogate c).1 (not_surrogate c).2
  rwa [Char.ofNat_toNat, ← encode_unitEscape h] at hunit

/-- Two units spell a character beyond the basic plane. -/
theorem spellsChar_pair {c : Char} (h : 0x10000 ≤ c.toNat) :
    SpellsChar (Utf8.encode ((utf16Units c).flatMap unitEscape)) c := by
  obtain ⟨lead, trail, hunits, hlead, htrail, hchar⟩ := exists_pair h
  have hpair := SpellsChar.pair (hexUnit_fourDigits (lt_of_isLead hlead)) hlead
    (hexUnit_fourDigits (lt_of_isTrail htrail)) htrail
  have hescapes : (utf16Units c).flatMap unitEscape = unitEscape lead ++ unitEscape trail := by
    simp [hunits]
  rw [hescapes, Utf8.encode_append, encode_unitEscape (lt_of_isLead hlead),
    encode_unitEscape (lt_of_isTrail htrail)]
  rwa [hchar] at hpair

/-- A letter behind a backslash spells its character. -/
theorem spellsChar_letter {mark c : Char} (h : (mark, c) ∈ letterEscapes)
    (hascii : mark.toNat < 0x80) : SpellsChar (Utf8.encode ['\\', mark]) c := by
  have hbytes : Utf8.encode ['\\', mark] = [ascii '\\', ascii mark] := by
    rw [Utf8.encode_cons, encode_singleton, Utf8.encodeChar_of_lt hascii]
    rfl
  rw [hbytes]
  exact .letter h

/-- The escape that every style needs for a character is a letter or its number, or the character
may stand for itself. -/
theorem neededEscape?_cases (c : Char) :
    (∃ mark, neededEscape? c = some ['\\', mark] ∧ (mark, c) ∈ letterEscapes ∧
        mark.toNat < 0x80) ∨
      (neededEscape? c = some (unitEscape c.toNat) ∧ c.toNat < 0x20) ∨
      (neededEscape? c = none ∧ 0x20 ≤ c.toNat ∧ c ≠ '"' ∧ c ≠ '\\') := by
  by_cases hquote : c = '"'
  · subst hquote
    exact Or.inl ⟨'"', rfl, by decide, by decide⟩
  by_cases hslash : c = '\\'
  · subst hslash
    exact Or.inl ⟨'\\', rfl, by decide, by decide⟩
  by_cases hline : c = '\n'
  · subst hline
    exact Or.inl ⟨'n', rfl, by decide, by decide⟩
  by_cases hreturn : c = '\r'
  · subst hreturn
    exact Or.inl ⟨'r', rfl, by decide, by decide⟩
  by_cases htab : c = '\t'
  · subst htab
    exact Or.inl ⟨'t', rfl, by decide, by decide⟩
  by_cases hback : c = '\x08'
  · subst hback
    exact Or.inl ⟨'b', rfl, by decide, by decide⟩
  by_cases hfeed : c = '\x0c'
  · subst hfeed
    exact Or.inl ⟨'f', rfl, by decide, by decide⟩
  have hback' : c.toNat ≠ 0x08 := fun heq => hback (Char.toNat_inj.mp heq)
  have hfeed' : c.toNat ≠ 0x0C := fun heq => hfeed (Char.toNat_inj.mp heq)
  unfold neededEscape?
  rw [if_neg hquote, if_neg hslash, if_neg hline, if_neg hreturn, if_neg htab, if_neg hback',
    if_neg hfeed']
  by_cases hcontrol : c.toNat < 0x20
  · exact Or.inr (Or.inl ⟨if_pos hcontrol, hcontrol⟩)
  · exact Or.inr (Or.inr ⟨if_neg hcontrol, Nat.le_of_not_lt hcontrol, hquote, hslash⟩)

/-- What is written for a character spells it. -/
theorem spellsChar_escapeChar (style : Style) (c : Char) :
    SpellsChar (Utf8.encode (escapeChar style c)) c := by
  unfold escapeChar
  rcases neededEscape?_cases c with ⟨mark, heq, hmem, hascii⟩ | ⟨heq, hcontrol⟩ |
    ⟨heq, hcontrol, hquote, hslash⟩
  · rw [heq]
    exact spellsChar_letter hmem hascii
  · rw [heq]
    exact spellsChar_unit (by omega)
  · rw [heq]
    have hplain : SpellsChar (Utf8.encode [c]) c := by
      rw [encode_singleton]
      exact .plain hcontrol hquote hslash
    cases style with
    | compact => exact hplain
    | spaced =>
        change SpellsChar (Utf8.encode (asciiForm c)) c
        unfold asciiForm
        by_cases hprintable : c.toNat < 0x7F
        · rw [if_pos hprintable]
          exact hplain
        · rw [if_neg hprintable]
          by_cases hplane : c.toNat < 0x10000
          · simpa [utf16Units, hplane] using spellsChar_unit hplane
          · exact spellsChar_pair (Nat.le_of_not_lt hplane)

theorem spellsText_escape (style : Style) (text : Text) :
    SpellsText (Utf8.encode (text.flatMap (escapeChar style))) text := by
  induction text with
  | nil => exact .nil
  | cons c text ih =>
      rw [List.flatMap_cons, Utf8.encode_append]
      exact .cons (spellsChar_escapeChar style c) ih

theorem encode_renderString (style : Style) (text : Text) :
    Utf8.encode (renderString style text) =
      ascii '"' :: Utf8.encode (text.flatMap (escapeChar style)) ++ [ascii '"'] := by
  exact encode_between (by decide) (by decide) _

/-! ### Values -/

mutual

/-- A value with its number literals spelled as a style writes them; everything else stays. -/
def respell (style : Style) : Json → Json
  | .null => .null
  | .bool b => .bool b
  | .number literal => .number (renderNumber style literal)
  | .string text => .string text
  | .array items => .array (respellItems style items)
  | .object members => .object (respellMembers style members)
termination_by structural value => value

/-- Items with their numbers spelled anew. -/
def respellItems (style : Style) : List Json → List Json
  | [] => []
  | item :: rest => respell style item :: respellItems style rest
termination_by structural items => items

/-- A member with the numbers of its value spelled anew. -/
def respellMember (style : Style) : Text × Json → Text × Json
  | (key, value) => (key, respell style value)
termination_by structural member => member

/-- Members with their numbers spelled anew. -/
def respellMembers (style : Style) : List (Text × Json) → List (Text × Json)
  | [] => []
  | member :: rest => respellMember style member :: respellMembers style rest
termination_by structural members => members

end

theorem respellItems_eq_map (style : Style) (items : List Json) :
    respellItems style items = items.map (respell style) := by
  induction items with
  | nil => rfl
  | cons item rest ih => simp [respellItems, ih]

theorem respellMember_eq (style : Style) (member : Text × Json) :
    respellMember style member = (member.1, respell style member.2) := by
  cases member
  rfl

theorem respellMembers_eq_map (style : Style) (members : Members) :
    respellMembers style members =
      members.map fun member => (member.1, respell style member.2) := by
  induction members with
  | nil => rfl
  | cons member rest ih => simp [respellMembers, respellMember_eq, ih]

/-- The compact style leaves every number as it is. -/
theorem respell_compact (value : Json) : respell .compact value = value := by
  induction value using Json.induction with
  | null => rfl
  | bool b => rfl
  | number literal => rfl
  | string text => rfl
  | array items ih =>
      have hitems : items.map (respell .compact) = items := by
        conv => rhs; rw [← List.map_id items]
        exact List.map_congr_left ih
      rw [respell, respellItems_eq_map, hitems]
  | object members ih =>
      have hmembers : members.map (fun member => (member.1, respell .compact member.2)) =
          members := by
        conv => rhs; rw [← List.map_id members]
        apply List.map_congr_left
        intro member hmember
        rw [ih member hmember]
        rfl
      rw [respell, respellMembers_eq_map, hmembers]

theorem depthItems_respell {style : Style} {items : List Json}
    (ih : ∀ item ∈ items, (respell style item).depth = item.depth) :
    depthItems (respellItems style items) = depthItems items := by
  induction items with
  | nil => rfl
  | cons item rest ihRest =>
      obtain ⟨hitem, hrest⟩ := List.forall_mem_cons.mp ih
      simp [respellItems, depthItems, hitem, ihRest hrest]

theorem depthMembers_respell {style : Style} {members : Members}
    (ih : ∀ member ∈ members, (respell style member.2).depth = member.2.depth) :
    depthMembers (respellMembers style members) = depthMembers members := by
  induction members with
  | nil => rfl
  | cons member rest ihRest =>
      obtain ⟨hmember, hrest⟩ := List.forall_mem_cons.mp ih
      simp [respellMembers, respellMember_eq, depthMembers, depthMember_eq, hmember,
        ihRest hrest]

/-- Spelling numbers anew does not change the depth. -/
theorem depth_respell (style : Style) (value : Json) :
    (respell style value).depth = value.depth := by
  induction value using Json.induction with
  | null => rfl
  | bool b => rfl
  | number literal => rfl
  | string text => rfl
  | array items ih => simp [respell, depth, depthItems_respell ih]
  | object members ih => simp [respell, depth, depthMembers_respell ih]

/-- The text of a literal in a style is a literal in normal form. -/
def Writable (style : Style) (literal : Text) : Prop :=
  NormalLiteral (renderNumber style literal)

theorem spellableItems_of_forall {style : Style} {items : List Json}
    (h : ∀ item ∈ items, spellable style item = true) : spellableItems style items = true := by
  induction items with
  | nil => rfl
  | cons item rest ih =>
      obtain ⟨hitem, hrest⟩ := List.forall_mem_cons.mp h
      simp [spellableItems, hitem, ih hrest]

theorem spellableMembers_of_forall {style : Style} {members : Members}
    (h : ∀ member ∈ members, spellable style member.2 = true) :
    spellableMembers style members = true := by
  induction members with
  | nil => rfl
  | cons member rest ih =>
      obtain ⟨key, value⟩ := member
      obtain ⟨hmember, hrest⟩ := List.forall_mem_cons.mp h
      have hmember : spellable style value = true := hmember
      simp [spellableMembers, spellableMember, hmember, ih hrest]

/-- A value can be spelled if its numbers are numbers of the grammar. -/
theorem EveryNumber.spellable {style : Style} {value : Json}
    (h : EveryNumber NumberLiteral value) : spellable style value = true := by
  induction h with
  | null | bool | string => rfl
  | number h => exact h.isSome_numberText? style
  | array hitems ih => exact spellableItems_of_forall ih
  | object hmembers ih => exact spellableMembers_of_forall ih

/-- A value whose numbers a style can write: the compact one all of them, the spaced one those
with a finite value. -/
def Spaceable (style : Style) (value : Json) : Prop :=
  style = .spaced → EveryNumber FiniteLiteral value

/-- What holds of literals in normal form holds of the numbers of a plain value. -/
theorem Plain.everyNumber {P : Text → Prop} {value : Json} (h : Plain value)
    (hP : ∀ literal, NormalLiteral literal → P literal) : EveryNumber P value := by
  induction h with
  | null => exact .null
  | bool => exact .bool
  | number hnormal => exact .number (hP _ hnormal)
  | string => exact .string
  | array hitems ih => exact .array ih
  | object hfirst hkeys hmembers ih => exact .object ih

theorem EveryNumber.and {P Q : Text → Prop} {value : Json} (hP : EveryNumber P value)
    (hQ : EveryNumber Q value) : EveryNumber (fun literal => P literal ∧ Q literal) value := by
  induction hP with
  | null => exact .null
  | bool => exact .bool
  | number hp =>
      cases hQ with
      | number hq => exact .number ⟨hp, hq⟩
  | string => exact .string
  | array hitems ih =>
      cases hQ with
      | array hall => exact .array fun item hitem => ih item hitem (hall item hitem)
  | object hmembers ih =>
      cases hQ with
      | object hall => exact .object fun member hmember => ih member hmember (hall member hmember)

theorem EveryNumber.imp {P Q : Text → Prop} {value : Json} (h : EveryNumber P value)
    (himp : ∀ literal, P literal → Q literal) : EveryNumber Q value := by
  induction h with
  | null => exact .null
  | bool => exact .bool
  | number hp => exact .number (himp _ hp)
  | string => exact .string
  | array hitems ih => exact .array ih
  | object hmembers ih => exact .object ih

/-- The numbers of a plain value that a style can write: in normal form, and finite if the style
is the spaced one. -/
theorem Plain.everyNumber_spaceable {P : Text → Prop} {style : Style} {value : Json}
    (h : Plain value) (hfinite : Spaceable style value)
    (hP : ∀ literal, NormalLiteral literal → (style = .spaced → FiniteLiteral literal) →
      P literal) : EveryNumber P value := by
  have hnormal := h.everyNumber fun literal hliteral => hliteral
  cases style with
  | compact => exact hnormal.imp fun literal hliteral => hP literal hliteral (by simp)
  | spaced =>
      apply (hnormal.and (hfinite rfl)).imp
      rintro literal ⟨hliteral, hfinite⟩
      exact hP literal hliteral fun _ => hfinite

/-- The numbers that a style can write stay literals in normal form. -/
theorem Plain.writable {style : Style} {value : Json} (h : Plain value)
    (hfinite : Spaceable style value) : EveryNumber (Writable style) value := by
  apply h.everyNumber_spaceable hfinite
  intro literal hnormal hliteral
  cases style with
  | compact => exact writable_compact hnormal
  | spaced => exact writable_spaced hnormal (hliteral rfl)

/-- A plain value stays plain when its numbers are spelled anew. -/
theorem Plain.respell {style : Style} {value : Json} (h : Plain value)
    (hnumbers : EveryNumber (Writable style) value) : Plain (respell style value) := by
  induction h with
  | null => exact .null
  | bool => exact .bool
  | number =>
      cases hnumbers with
      | number hwritable => exact .number hwritable
  | string => exact .string
  | array hitems ih =>
      cases hnumbers with
      | array hnumbers =>
          rw [Json.respell, respellItems_eq_map]
          apply Plain.array
          intro item hitem
          obtain ⟨old, hold, rfl⟩ := List.mem_map.mp hitem
          exact ih old hold (hnumbers old hold)
  | @object members hfirst hkeys hmembers ih =>
      cases hnumbers with
      | object hnumbers =>
          rw [Json.respell, respellMembers_eq_map]
          apply Plain.object
          · cases members with
            | nil => exact hfirst
            | cons member rest => exact hfirst
          · simpa [Members.Distinct, Members.keys, Function.comp_def] using hkeys
          · intro member hmember
            obtain ⟨old, hold, rfl⟩ := List.mem_map.mp hmember
            exact ih old hold (hnumbers old hold)

/-- Writing a literal a second time changes nothing. -/
def Settled (style : Style) (literal : Text) : Prop :=
  renderNumber style (renderNumber style literal) = renderNumber style literal

/-- The numbers that a style can write are settled. -/
theorem Plain.settled {style : Style} {value : Json} (h : Plain value)
    (hfinite : Spaceable style value) : EveryNumber (Settled style) value := by
  apply h.everyNumber_spaceable hfinite
  intro literal hnormal hliteral
  cases style with
  | compact => rfl
  | spaced => exact renderNumber_idem hnormal (hliteral rfl)

theorem renderItems_respell {style : Style} {items : List Json}
    (ih : ∀ item ∈ items, render style (respell style item) = render style item) :
    renderItems style (respellItems style items) = renderItems style items := by
  induction items with
  | nil => rfl
  | cons item rest ihRest =>
      obtain ⟨hitem, hrest⟩ := List.forall_mem_cons.mp ih
      have htail := ihRest hrest
      cases rest with
      | nil => exact hitem
      | cons next rest =>
          simp only [respellItems, renderItems] at htail ⊢
          rw [hitem, htail]

theorem renderMember_respell {style : Style} {member : Text × Json}
    (h : render style (respell style member.2) = render style member.2) :
    renderMember style (respellMember style member) = renderMember style member := by
  obtain ⟨key, value⟩ := member
  simp only [respellMember, renderMember, h]

theorem renderMembers_respell {style : Style} {members : Members}
    (ih : ∀ member ∈ members, render style (respell style member.2) = render style member.2) :
    renderMembers style (respellMembers style members) = renderMembers style members := by
  induction members with
  | nil => rfl
  | cons member rest ihRest =>
      obtain ⟨hmember, hrest⟩ := List.forall_mem_cons.mp ih
      have htail := ihRest hrest
      cases rest with
      | nil => exact renderMember_respell hmember
      | cons next rest =>
          simp only [respellMembers, renderMembers] at htail ⊢
          rw [renderMember_respell hmember, htail]

/-- Writing a value with its numbers spelled anew gives the same text. -/
theorem render_respell {style : Style} {value : Json} (h : EveryNumber (Settled style) value) :
    render style (respell style value) = render style value := by
  induction h with
  | null | bool | string => rfl
  | number hsettled => exact hsettled
  | array hitems ih => simp only [respell, render, renderItems_respell ih]
  | object hmembers ih => simp only [respell, render, renderMembers_respell ih]

/-- The bytes that a style writes behind a comma and a colon. -/
def gap (style : Style) : List UInt8 :=
  match style with
  | .spaced => [ascii ' ']
  | .compact => []

theorem spaces_gap (style : Style) : Spaces (gap style) := by
  cases style with
  | spaced => exact spaces_singleton rfl
  | compact => exact spaces_nil

theorem encode_itemSeparator (style : Style) :
    Utf8.encode style.itemSeparator = ascii ',' :: gap style := by
  cases style <;> rfl

theorem encode_keySeparator (style : Style) :
    Utf8.encode style.keySeparator = ascii ':' :: gap style := by
  cases style <;> rfl

/-- Items are spelled with white space in front. -/
theorem spellsItems_render {style : Style} {item : Json} {rest : List Json}
    (ih : ∀ other ∈ item :: rest,
      Spells (Utf8.encode (render style other)) (respell style other))
    {w : List UInt8} (hw : Spaces w) :
    SpellsItems (w ++ Utf8.encode (renderItems style (item :: rest)))
      (respellItems style (item :: rest)) := by
  induction rest generalizing item w with
  | nil => exact spellsItems_single hw (ih item List.mem_cons_self)
  | cons next rest ihRest =>
      obtain ⟨hitem, hrest⟩ := List.forall_mem_cons.mp ih
      have htail := ihRest hrest (spaces_gap style)
      have hitems := SpellsItems.cons hw hitem spaces_nil htail
      simpa [renderItems, respellItems, Utf8.encode_append, encode_itemSeparator] using hitems

/-- A member is spelled with white space in front. -/
theorem spellsMember_render (style : Style) (key : Text) {value : Text} {tree : Json}
    (h : Spells (Utf8.encode value) tree) {w : List UInt8} (hw : Spaces w) :
    SpellsMember (w ++ Utf8.encode (renderString style key ++ style.keySeparator ++ value))
      (key, tree) := by
  have hmember := SpellsMember.mk hw (spellsText_escape style key) spaces_nil
    (spaces_gap style) h spaces_nil
  simpa [Utf8.encode_append, encode_renderString, encode_keySeparator] using hmember

theorem spellsMembers_render {style : Style} {member : Text × Json} {rest : Members}
    (ih : ∀ other ∈ member :: rest,
      Spells (Utf8.encode (render style other.2)) (respell style other.2))
    {w : List UInt8} (hw : Spaces w) :
    SpellsMembers (w ++ Utf8.encode (renderMembers style (member :: rest)))
      (respellMembers style (member :: rest)) := by
  induction rest generalizing member w with
  | nil =>
      obtain ⟨key, value⟩ := member
      exact .one (spellsMember_render style key (ih (key, value) List.mem_cons_self) hw)
  | cons next rest ihRest =>
      obtain ⟨hmember, hrest⟩ := List.forall_mem_cons.mp ih
      obtain ⟨key, value⟩ := member
      have htail := ihRest hrest (spaces_gap style)
      have hmembers := SpellsMembers.cons (spellsMember_render style key hmember hw) htail
      simpa [renderMembers, renderMember, respellMembers, respellMember, Utf8.encode_append,
        encode_itemSeparator] using hmembers

/-- The text of a value spells the value with its numbers spelled anew. -/
theorem spells_render {style : Style} {value : Json}
    (h : EveryNumber (Writable style) value) :
    Spells (Utf8.encode (render style value)) (respell style value) := by
  induction h with
  | null => exact .null
  | @bool b =>
      cases b with
      | true => exact .true
      | false => exact .false
  | number hwritable => exact .number hwritable
  | string =>
      rw [render, encode_renderString]
      exact .string (spellsText_escape style _)
  | @array items hitems ih =>
      cases items with
      | nil => exact .emptyArray spaces_nil
      | cons item rest =>
          have harray := Spells.array (spellsItems_render ih spaces_nil)
          rw [render, encode_between (by decide) (by decide)]
          exact harray
  | @object members hmembers ih =>
      cases members with
      | nil => exact .emptyObject spaces_nil
      | cons member rest =>
          have hobject := Spells.object (spellsMembers_render ih spaces_nil)
          rw [render, encode_between (by decide) (by decide)]
          exact hobject

/-- The text of a plain value is read as the value with its numbers spelled anew. -/
theorem parse_render {style : Style} {value : Json} (h : Plain value)
    (hnumbers : EveryNumber (Writable style) value) (hdepth : value.depth ≤ depthLimit) :
    parse (Utf8.encode (render style value)) = .ok (respell style value) := by
  apply parse_eq_ok_iff.mpr
  refine ⟨respell style value, ?_, (h.respell hnumbers).value?_self⟩
  have hdocument := Document.mk spaces_nil (spells_render hnumbers) spaces_nil
    (by rwa [depth_respell])
  simpa using hdocument

/-! ### Compact texts -/

section Compact

variable {value : Json}

theorem Plain.normalNumbers (h : Plain value) : EveryNumber NormalLiteral value :=
  h.everyNumber fun _ hliteral => hliteral

/-- The compact text of a value spells that very value. -/
theorem spells_render_compact (h : EveryNumber NormalLiteral value) :
    Spells (Utf8.encode (render .compact value)) value := by
  have hspells := spells_render (h.imp fun _ hliteral => writable_compact hliteral)
  rwa [respell_compact] at hspells

theorem document_render_compact (h : EveryNumber NormalLiteral value)
    (hdepth : value.depth ≤ depthLimit) :
    Document (Utf8.encode (render .compact value)) value := by
  have hdocument := Document.mk spaces_nil (spells_render_compact h) spaces_nil hdepth
  simpa using hdocument

theorem parse_render_compact (h : Plain value) (hdepth : value.depth ≤ depthLimit) :
    parse (Utf8.encode (render .compact value)) = .ok value := by
  have hread := @parse_render .compact value h
    (h.normalNumbers.imp fun _ hliteral => writable_compact hliteral) hdepth
  rwa [respell_compact] at hread

end Compact

end QueryLabel.Json
