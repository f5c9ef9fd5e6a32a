import QueryLabel.Proofs.Json.Printing

/-!
What is printed is printable.  Neither style prints a control character, and the spaced one prints
nothing beyond printable ASCII: strings are escaped, and numbers are literals of the grammar or the
words for what is not finite (`printable_render`).
-/

namespace QueryLabel

/-- A style may print a character: it is no control, and in the spaced style printable ASCII. -/
def PrintableChar (style : Style) (c : Char) : Prop :=
  0x20 ≤ c.toNat ∧ (style = .spaced → c.toNat < 0x7F)

/-- A style may print every character of a text. -/
def Printable (style : Style) (text : Text) : Prop :=
  ∀ c ∈ text, PrintableChar style c

instance (style : Style) (c : Char) : Decidable (PrintableChar style c) :=
  inferInstanceAs (Decidable (_ ∧ _))

instance (style : Style) (text : Text) : Decidable (Printable style text) :=
  List.decidableBAll (PrintableChar style) text

variable {style : Style}

theorem printableChar_of_ascii {c : Char} (hlow : 0x20 ≤ c.toNat) (hhigh : c.toNat < 0x7F) :
    PrintableChar style c :=
  ⟨hlow, fun _ => hhigh⟩

@[simp] theorem printable_nil : Printable style [] :=
  List.forall_mem_nil _

@[simp] theorem printable_cons {c : Char} {text : Text} :
    Printable style (c :: text) ↔ PrintableChar style c ∧ Printable style text :=
  List.forall_mem_cons

@[simp] theorem printable_append {a b : Text} :
    Printable style (a ++ b) ↔ Printable style a ∧ Printable style b :=
  List.forall_mem_append

theorem printable_flatMap {α : Type} {f : α → Text} {items : List α}
    (h : ∀ item ∈ items, Printable style (f item)) : Printable style (items.flatMap f) := by
  intro c hc
  obtain ⟨item, hitem, hc⟩ := List.mem_flatMap.mp hc
  exact h item hitem c hc

/-- The bytes of a printable text: none of them is a control, and in the spaced style they are all
printable ASCII. -/
theorem Printable.encode {text : Text} (h : Printable style text) :
    ∀ b ∈ Utf8.encode text, 0x20 ≤ b.toNat ∧ (style = .spaced → b.toNat < 0x7F) := by
  intro b hb
  obtain ⟨c, hc, hb⟩ := List.mem_flatMap.mp hb
  have hchar := h c hc
  by_cases hascii : c.toNat < 0x80
  · rw [Utf8.encodeChar_of_lt hascii, List.mem_singleton] at hb
    have hnat : b.toNat = c.toNat := by rw [hb, Utf8.toNat_toUInt8 (by omega)]
    rwa [hnat]
  · -- Only the compact style prints characters beyond ASCII.
    have hbyte := Utf8.le_of_mem_encodeChar (Nat.le_of_not_lt hascii) hb
    refine ⟨by omega, fun hstyle => ?_⟩
    have hlt := hchar.2 hstyle
    omega

theorem printable_itemSeparator : Printable style style.itemSeparator := by
  cases style <;> decide

theorem printable_keySeparator : Printable style style.keySeparator := by
  cases style <;> decide

namespace Json

/-! ### Strings -/

theorem printable_unitEscape {n : Nat} (h : n < 0x10000) : Printable style (unitEscape n) := by
  have hdigit : ∀ d : Fin 0x10, ∀ style, PrintableChar style d.val.digitChar := by
    intro d style
    have hall : ∀ d : Fin 0x10, 0x20 ≤ d.val.digitChar.toNat ∧ d.val.digitChar.toNat < 0x7F := by
      decide
    exact printableChar_of_ascii (hall d).1 (hall d).2
  have hdigit' : ∀ {d : Nat}, d < 0x10 → PrintableChar style d.digitChar :=
    fun hd => hdigit ⟨_, hd⟩ style
  rw [unitEscape_eq h, Text.fourDigits]
  simp only [printable_cons, printable_nil, and_true]
  refine ⟨printableChar_of_ascii (by decide) (by decide),
    printableChar_of_ascii (by decide) (by decide), hdigit' (by omega), hdigit' (by omega),
    hdigit' (by omega), hdigit' (by omega)⟩

/-- A UTF-16 unit has sixteen bits. -/
theorem lt_of_mem_utf16Units {c : Char} {unit : Nat} (h : unit ∈ utf16Units c) :
    unit < 0x10000 := by
  by_cases hplane : c.toNat < 0x10000
  · have hunit : unit = c.toNat := by simpa [utf16Units, hplane] using h
    rwa [hunit]
  · obtain ⟨lead, trail, hunits, hlead, htrail, -⟩ := exists_pair (Nat.le_of_not_lt hplane)
    simp only [hunits, List.mem_cons, List.not_mem_nil, or_false] at h
    rcases h with rfl | rfl
    · exact lt_of_isLead hlead
    · exact lt_of_isTrail htrail

theorem printable_asciiForm {c : Char} (h : 0x20 ≤ c.toNat) : Printable style (asciiForm c) := by
  unfold asciiForm
  by_cases hprintable : c.toNat < 0x7F
  · rw [if_pos hprintable, printable_cons]
    exact ⟨printableChar_of_ascii h hprintable, printable_nil⟩
  · rw [if_neg hprintable]
    exact printable_flatMap fun unit hunit => printable_unitEscape (lt_of_mem_utf16Units hunit)

theorem printable_escapeChar (style : Style) (c : Char) : Printable style (escapeChar style c) := by
  unfold escapeChar
  rcases neededEscape?_cases c with ⟨mark, heq, hmem, -⟩ | ⟨heq, hcontrol⟩ | ⟨heq, hcontrol, -⟩
  · rw [heq]
    have hmarks : ∀ escape ∈ letterEscapes, 0x20 ≤ escape.1.toNat ∧ escape.1.toNat < 0x7F := by
      decide
    have hmark := hmarks (mark, c) hmem
    simp only [printable_cons, printable_nil, and_true]
    exact ⟨printableChar_of_ascii (by decide) (by decide),
      printableChar_of_ascii hmark.1 hmark.2⟩
  · rw [heq]
    exact printable_unitEscape (by omega)
  · rw [heq]
    cases style with
    | spaced => exact printable_asciiForm hcontrol
    | compact =>
        rw [printable_cons]
        exact ⟨⟨hcontrol, fun hstyle => by cases hstyle⟩, printable_nil⟩

theorem printable_renderString (style : Style) (text : Text) :
    Printable style (renderString style text) := by
  have hquote : PrintableChar style '"' := printableChar_of_ascii (by decide) (by decide)
  have htext : Printable style (text.flatMap (escapeChar style)) :=
    printable_flatMap fun c _ => printable_escapeChar style c
  simp [renderString, hquote, htext]

/-! ### Numbers -/

theorem NumberLiteral.printable {literal : Text} (h : NumberLiteral literal) :
    Printable style literal := by
  rw [h.eq_chars]
  obtain ⟨normal, hspells⟩ := h
  intro c hc
  obtain ⟨b, hb, rfl⟩ := List.mem_map.mp hc
  have hbounds := hspells.printable b hb
  have hnat : (byteChar b).toNat = b.toNat := Utf8.toNat_ofNat_of_lt (by omega)
  rw [PrintableChar, hnat]
  exact ⟨hbounds.1, fun _ => hbounds.2⟩

theorem printable_write (layout : Layout) {x : Binary64} (h : x.isFinite = true) :
    Printable style (layout.write x) :=
  (NormalLiteral.numberLiteral (normalLiteral_write layout h)).printable

/-- In the spaced style the words for what is not finite are printable, too. -/
theorem printable_write_spaced (x : Binary64) :
    Printable style (Style.spacedLayout.write x) := by
  cases x with
  | nan => cases style <;> decide
  | infinite negative => cases negative <;> cases style <;> decide
  | finite negative size => exact printable_write _ rfl

theorem printable_renderNumber {literal : Text} (h : NumberLiteral literal) :
    Printable style (renderNumber style literal) := by
  cases style with
  | compact => exact h.printable
  | spaced =>
      obtain ⟨x, hx⟩ := h.readLiteral?
      unfold renderNumber numberText? spellNumber?
      simp only
      split
      · rcases spellWhole_cases literal with hzero | hsame
        · rw [Option.getD_some, hzero]
          decide
        · rw [Option.getD_some, hsame]
          exact h.printable
      · rw [hx]
        exact printable_write_spaced x

/-! ### Values -/

theorem printable_renderItems {items : List Json}
    (h : ∀ item ∈ items, Printable style (render style item)) :
    Printable style (renderItems style items) := by
  induction items with
  | nil => exact printable_nil
  | cons item rest ih =>
      obtain ⟨hitem, hrest⟩ := List.forall_mem_cons.mp h
      cases rest with
      | nil => exact hitem
      | cons next rest =>
          simp only [renderItems, printable_append]
          exact ⟨⟨hitem, printable_itemSeparator⟩, ih hrest⟩

theorem printable_renderMember {member : Text × Json}
    (h : Printable style (render style member.2)) :
    Printable style (renderMember style member) := by
  obtain ⟨key, value⟩ := member
  simp only [renderMember, printable_append]
  exact ⟨⟨printable_renderString style key, printable_keySeparator⟩, h⟩

theorem printable_renderMembers {members : Members}
    (h : ∀ member ∈ members, Printable style (render style member.2)) :
    Printable style (renderMembers style members) := by
  induction members with
  | nil => exact printable_nil
  | cons member rest ih =>
      obtain ⟨hmember, hrest⟩ := List.forall_mem_cons.mp h
      cases rest with
      | nil => exact printable_renderMember hmember
      | cons next rest =>
          simp only [renderMembers, printable_append]
          exact ⟨⟨printable_renderMember hmember, printable_itemSeparator⟩, ih hrest⟩

/-- A value whose numbers are literals of the grammar is printed in printable characters. -/
theorem printable_render {value : Json} (h : EveryNumber NumberLiteral value) :
    Printable style (render style value) := by
  have hbracket : Printable style ['[', ']', '{', '}'] := by
    cases style <;> decide
  induction h with
  | null => cases style <;> decide
  | @bool b => cases b <;> cases style <;> decide
  | number h => exact printable_renderNumber h
  | string => exact printable_renderString style _
  | array hitems ih =>
      have hopen := hbracket '[' (by simp)
      have hclose := hbracket ']' (by simp)
      simp [render, hopen, hclose, printable_renderItems ih]
  | object hmembers ih =>
      have hopen := hbracket '{' (by simp)
      have hclose := hbracket '}' (by simp)
      simp [render, hopen, hclose, printable_renderMembers ih]

end Json

end QueryLabel
