import QueryLabel.Json.Printer
import QueryLabel.Proofs.Binary64.Layout
import QueryLabel.Proofs.Json.Value

/-!
The texts of numbers.  Every number of the grammar can be read as a binary64 number
(`NumberLiteral.readLiteral?`), and what is written for a finite one is in normal form again
(`writable_spaced`).  Writing a number a second time changes nothing (`renderNumber_idem`).
-/

namespace QueryLabel.Json

open Text (ascii)
open Binary64 (DigitText WholeText FractionText ExponentText Literal signText)

/-! ### Characters and bytes -/

theorem byteChar_ascii {c : Char} (h : c.toNat < 0x80) : byteChar (ascii c) = c := by
  unfold byteChar ascii
  rw [Utf8.toNat_toUInt8 (by omega), Char.ofNat_toNat]

theorem encode_ascii {text : Text} (h : ∀ c ∈ text, c.toNat < 0x80) :
    Utf8.encode text = text.map ascii := by
  induction text with
  | nil => rfl
  | cons c text ih =>
      obtain ⟨hc, htext⟩ := List.forall_mem_cons.mp h
      rw [Utf8.encode_cons, Utf8.encodeChar_of_lt hc, ih htext]
      rfl

theorem chars_map_ascii {text : Text} (h : ∀ c ∈ text, c.toNat < 0x80) :
    chars (text.map ascii) = text := by
  rw [chars, List.map_map]
  conv => rhs; rw [← List.map_id text]
  apply List.map_congr_left
  intro c hc
  exact byteChar_ascii (h c hc)

theorem isDigit_ascii {c : Char} (h : c.isDigit = true) : isDigit (ascii c) = true := by
  obtain ⟨hlow, hhigh⟩ := Text.digit_bounds h
  have hnat : (ascii c).toNat = c.toNat := Utf8.toNat_toUInt8 (by omega)
  simp only [isDigit, Bool.and_eq_true, decide_eq_true_eq, UInt8.le_iff_toNat_le, hnat]
  exact ⟨hlow, hhigh⟩

theorem isDigit_byteChar {b : UInt8} (h : isDigit b = true) : (byteChar b).isDigit = true := by
  have hlt := lt_of_isDigit h
  simp only [isDigit, Bool.and_eq_true, decide_eq_true_eq, UInt8.le_iff_toNat_le] at h
  have hnat : (byteChar b).toNat = b.toNat := Utf8.toNat_ofNat_of_lt (by omega)
  simp only [Char.isDigit, Bool.and_eq_true, decide_eq_true_eq]
  have hlow : 48 ≤ (byteChar b).toNat := by
    rw [hnat]
    exact h.1
  have hhigh : (byteChar b).toNat ≤ 57 := by
    rw [hnat]
    exact h.2
  exact ⟨hlow, hhigh⟩

theorem digitText_chars {s : List UInt8} (h : ∀ b ∈ s, isDigit b = true) :
    DigitText (chars s) := by
  intro c hc
  obtain ⟨b, hb, rfl⟩ := List.mem_map.mp hc
  exact isDigit_byteChar (h b hb)

theorem isDigit_of_digitText {text : Text} (h : DigitText text) :
    ∀ b ∈ text.map ascii, isDigit b = true := by
  intro b hb
  obtain ⟨c, hc, rfl⟩ := List.mem_map.mp hb
  exact isDigit_ascii (h c hc)

theorem lt_of_digitText {text : Text} (h : DigitText text) : ∀ c ∈ text, c.toNat < 0x80 := by
  intro c hc
  have hbounds := Text.digit_bounds (h c hc)
  omega

/-! ### Literals in normal form -/

theorem wholeText_of_wholePart {s : List UInt8} (h : WholePart s) : WholeText (chars s) := by
  cases h with
  | zero => exact .zero
  | @digits d s hd hzero hs =>
      refine .digits (by simp) (digitText_chars (List.forall_mem_cons.mpr ⟨hd, hs⟩)) ?_
      intro hfirst
      apply hzero
      have hchar : byteChar d = '0' := Option.some.inj hfirst
      have hnat : (byteChar d).toNat = d.toNat :=
        Utf8.toNat_ofNat_of_lt (by have hlt := lt_of_isDigit hd; omega)
      rw [hchar] at hnat
      exact UInt8.toNat_inj.mp hnat.symm

theorem fractionText_of_fractionPart {s : List UInt8} (h : FractionPart s) :
    ∃ digits, FractionText (chars s) digits := by
  cases h with
  | none => exact ⟨[], .none⟩
  | @point s hs =>
      refine ⟨chars s, .point ?_ (digitText_chars hs.2)⟩
      intro hnil
      exact hs.1 (List.map_eq_nil_iff.mp hnil)

theorem wholePart_of_wholeText {text : Text} (h : WholeText text) :
    WholePart (text.map ascii) := by
  cases h with
  | zero => exact .zero
  | digits hne hdigits hfirst =>
      cases text with
      | nil => contradiction
      | cons c rest =>
          have hall := isDigit_of_digitText hdigits
          rw [List.map_cons, List.forall_mem_cons] at hall
          refine .digits hall.1 ?_ hall.2
          intro hzero
          have hchar := congrArg byteChar hzero
          rw [byteChar_ascii (lt_of_digitText hdigits c List.mem_cons_self)] at hchar
          exact hfirst (congrArg some hchar)

theorem fractionPart_of_fractionText {point digits : Text} (h : FractionText point digits) :
    FractionPart (point.map ascii) := by
  cases h with
  | none => exact .none
  | point hne hdigits =>
      refine .point ⟨?_, isDigit_of_digitText hdigits⟩
      intro hnil
      exact hne (List.map_eq_nil_iff.mp hnil)

theorem exponentPart_of_exponentText {power : Text} {e : Int} (h : ExponentText power e) :
    ExponentPart (power.map ascii) power := by
  have hsigned : ∀ {sign : UInt8} {digits : Text}, sign = ascii '+' ∨ sign = ascii '-' →
      digits ≠ [] → DigitText digits →
      ExponentPart (ascii 'e' :: sign :: digits.map ascii) ('e' :: byteChar sign :: digits) := by
    intro sign digits hsign hne hdigits
    have hmap : digits.map ascii ≠ [] := fun hnil => hne (List.map_eq_nil_iff.mp hnil)
    have hpart := ExponentPart.signed (Or.inl rfl) hsign ⟨hmap, isDigit_of_digitText hdigits⟩
    rwa [show (digits.map ascii).map byteChar = digits from
      chars_map_ascii (lt_of_digitText hdigits)] at hpart
  cases h with
  | none => exact .none
  | plus hne hdigits => exact hsigned (Or.inl rfl) hne hdigits
  | minus hne hdigits => exact hsigned (Or.inr rfl) hne hdigits

theorem lt_of_mem_fraction {point digits : Text} (h : FractionText point digits) :
    ∀ c ∈ point, c.toNat < 0x80 := by
  cases h with
  | none =>
      intro c hc
      cases hc
  | point hne hdigits =>
      exact List.forall_mem_cons.mpr ⟨by decide, lt_of_digitText hdigits⟩

theorem lt_of_mem_exponent {power : Text} {e : Int} (h : ExponentText power e) :
    ∀ c ∈ power, c.toNat < 0x80 := by
  cases h with
  | none =>
      intro c hc
      cases hc
  | plus hne hdigits | minus hne hdigits =>
      exact List.forall_mem_cons.mpr ⟨by decide,
        List.forall_mem_cons.mpr ⟨by decide, lt_of_digitText hdigits⟩⟩

theorem lt_of_mem_signText {negative : Bool} : ∀ c ∈ signText negative, c.toNat < 0x80 := by
  cases negative with
  | false => exact List.forall_mem_nil _
  | true => exact List.forall_mem_cons.mpr ⟨by decide, List.forall_mem_nil _⟩

/-- A literal with its parts is in normal form. -/
theorem normalLiteral_of_literal {text : Text} {negative : Bool} {n : Nat} {e : Int}
    (h : Literal text negative n e) : NormalLiteral text := by
  obtain @⟨_, whole, point, fraction, power, e, hwhole, hfraction, hpower⟩ := h
  have hascii : ∀ c ∈ signText negative ++ whole ++ point ++ power, c.toNat < 0x80 := by
    intro c hc
    simp only [List.mem_append] at hc
    rcases hc with ((hc | hc) | hc) | hc
    · exact lt_of_mem_signText c hc
    · exact lt_of_digitText hwhole.digitText c hc
    · exact lt_of_mem_fraction hfraction c hc
    · exact lt_of_mem_exponent hpower c hc
  have hmantissa : chars ((signText negative ++ whole ++ point).map ascii) =
      signText negative ++ whole ++ point :=
    chars_map_ascii fun c hc => hascii c (List.mem_append_left _ hc)
  have hsign : (signText negative).map ascii = [] ∨
      (signText negative).map ascii = [ascii '-'] := by
    cases negative with
    | true => exact Or.inr rfl
    | false => exact Or.inl rfl
  have hspells := SpellsNumber.mk hsign (wholePart_of_wholeText hwhole)
    (fractionPart_of_fractionText hfraction) (exponentPart_of_exponentText hpower)
  simp only [← List.map_append] at hspells
  rw [show ((signText negative ++ whole ++ point).map ascii).map byteChar =
    signText negative ++ whole ++ point from hmantissa] at hspells
  rw [← encode_ascii hascii] at hspells
  simpa [NormalLiteral] using hspells

/-! ### Literals of any form -/

/-- A text that is a number of the grammar, whether or not it is in normal form. -/
def NumberLiteral (literal : Text) : Prop :=
  ∃ normal, SpellsNumber (Utf8.encode literal) normal

theorem NormalLiteral.numberLiteral {literal : Text} (h : NormalLiteral literal) :
    NumberLiteral literal :=
  ⟨literal, h⟩

/-- The bytes of a number are printable ASCII. -/
theorem SpellsNumber.printable {s : List UInt8} {literal : Text} (h : SpellsNumber s literal) :
    ∀ b ∈ s, 0x20 ≤ b.toNat ∧ b.toNat < 0x7F := by
  have hdigit : ∀ {b : UInt8}, isDigit b → 0x20 ≤ b.toNat ∧ b.toNat < 0x7F := by
    intro b hb
    simp only [isDigit, Bool.and_eq_true, decide_eq_true_eq, UInt8.le_iff_toNat_le] at hb
    have hlow : (ascii '0').toNat = 48 := rfl
    have hhigh : (ascii '9').toNat = 57 := rfl
    omega
  cases h with
  | mk hsign hwhole hfraction hexponent =>
      intro b hb
      simp only [List.mem_append] at hb
      rcases hb with ((hb | hb) | hb) | hb
      · rcases hsign with rfl | rfl
        · cases hb
        · rw [List.mem_singleton.mp hb]
          decide
      · exact hdigit (hwhole.isDigit b hb)
      · cases hfraction with
        | none => cases hb
        | point hs =>
            rcases List.mem_cons.mp hb with rfl | hb
            · decide
            · exact hdigit (hs.2 b hb)
      · cases hexponent with
        | none => cases hb
        | unsigned hmark hs =>
            rcases List.mem_cons.mp hb with rfl | hb
            · rcases hmark with rfl | rfl <;> decide
            · exact hdigit (hs.2 b hb)
        | signed hmark hsign hs =>
            rcases List.mem_cons.mp hb with rfl | hb
            · rcases hmark with rfl | rfl <;> decide
            rcases List.mem_cons.mp hb with rfl | hb
            · rcases hsign with rfl | rfl <;> decide
            · exact hdigit (hs.2 b hb)

/-- The characters of a literal are its bytes. -/
theorem NumberLiteral.eq_chars {literal : Text} (h : NumberLiteral literal) :
    literal = chars (Utf8.encode literal) := by
  obtain ⟨normal, hspells⟩ := h
  apply Utf8.encode_injective
  rw [encode_byteChars]
  intro b hb
  have hbounds := hspells.printable b hb
  omega

/-- An exponent of the grammar can be read, and is told from the digits in front of it. -/
theorem readExponent?_of_exponentPart {s : List UInt8} {power : Text} (h : ExponentPart s power) :
    (∃ e, Binary64.readExponent? (chars s) = some e) ∧
      ∀ c ∈ (chars s).head?, c.isDigit = false ∧ c ≠ '.' := by
  have hdigits : ∀ {s : List UInt8}, Digits s → chars s ≠ [] ∧ DigitText (chars s) := by
    intro s hs
    exact ⟨fun hnil => hs.1 (List.map_eq_nil_iff.mp hnil), digitText_chars hs.2⟩
  cases h with
  | none => exact ⟨⟨0, rfl⟩, fun c hc => by cases hc⟩
  | @unsigned mark s hmark hs =>
      obtain ⟨hne, htext⟩ := hdigits hs
      have hall := List.all_eq_true.mpr htext
      have hsplit : Binary64.splitSign (chars s) = (false, chars s) :=
        @Binary64.splitSign_signText false _ hne fun c hc => htext c (List.mem_of_mem_head? hc)
      constructor
      · rcases hmark with rfl | rfl <;>
          simp [Binary64.readExponent?, byteChar, ascii, hsplit, hne, hall]
      · intro c hc
        cases hc
        rcases hmark with rfl | rfl <;> decide
  | @signed mark sign s hmark hsign hs =>
      obtain ⟨hne, htext⟩ := hdigits hs
      have hall := List.all_eq_true.mpr htext
      constructor
      · rcases hmark with rfl | rfl <;> rcases hsign with rfl | rfl <;>
          simp [Binary64.readExponent?, Binary64.splitSign, byteChar, ascii, hne, hall]
      · intro c hc
        cases hc
        rcases hmark with rfl | rfl <;> decide

/-- A number of the grammar has a whole part, and perhaps a fraction and an exponent. -/
theorem NumberLiteral.parts {literal : Text} (h : NumberLiteral literal) :
    ∃ negative whole point fraction power e, WholeText whole ∧ FractionText point fraction ∧
      Binary64.readExponent? power = some e ∧
      (∀ c ∈ power.head?, c.isDigit = false ∧ c ≠ '.') ∧
      literal = signText negative ++ (whole ++ (point ++ power)) := by
  rw [h.eq_chars]
  obtain ⟨normal, hspells⟩ := h
  generalize Utf8.encode literal = s at hspells ⊢
  cases hspells with
  | @mk sign _ _ _ _ hsign hwhole hfraction hexponent =>
      obtain ⟨digits, hfraction⟩ := fractionText_of_fractionPart hfraction
      obtain ⟨⟨e, hpower⟩, hmark⟩ := readExponent?_of_exponentPart hexponent
      obtain ⟨negative, hnegative⟩ : ∃ negative, chars sign = signText negative := by
        rcases hsign with rfl | rfl
        · exact ⟨false, rfl⟩
        · exact ⟨true, rfl⟩
      refine ⟨negative, _, _, _, _, e, wholeText_of_wholePart hwhole, hfraction, hpower, hmark, ?_⟩
      rw [← hnegative]
      simp [chars]

/-- Every number of the grammar spells a numeral. -/
theorem NumberLiteral.numeral? {literal : Text} (h : NumberLiteral literal) :
    ∃ numeral, Binary64.numeral? literal = some numeral := by
  obtain ⟨_, _, _, _, _, _, hwhole, hfraction, hpower, hmark, rfl⟩ := h.parts
  exact ⟨_, Binary64.numeral?_of_parts hwhole hfraction hmark hpower⟩

/-- Every number of the grammar can be read as a binary64 number. -/
theorem NumberLiteral.readLiteral? {literal : Text} (h : NumberLiteral literal) :
    ∃ x, Binary64.readLiteral? literal = some x := by
  obtain ⟨numeral, hnumeral⟩ := h.numeral?
  rw [Binary64.readLiteral?_eq, hnumeral]
  exact ⟨_, rfl⟩

/-! ### What a style writes -/

/-- A literal that is not whole has a finite value. -/
def FiniteLiteral (literal : Text) : Prop :=
  isWhole literal = false → ∀ x, Binary64.readLiteral? literal = some x → x.isFinite = true

theorem finiteLiteral_of_readLiteral? {literal : Text} {x : Binary64}
    (h : Binary64.readLiteral? literal = some x) (hx : x.isFinite = true) :
    FiniteLiteral literal := by
  intro _ y hy
  rw [h] at hy
  rw [← Option.some.inj hy]
  exact hx

theorem normalLiteral_write (layout : Layout) {x : Binary64} (h : x.isFinite = true) :
    NormalLiteral (layout.write x) := by
  obtain ⟨negative, n, e, hliteral⟩ := layout.exists_literal_write h
  exact normalLiteral_of_literal hliteral

theorem isWhole_write (layout : Layout) {x : Binary64} (h : x.isFinite = true) :
    isWhole (layout.write x) = false := by
  unfold isWhole
  rw [List.all_eq_false]
  rcases layout.mark_mem_write h with hpoint | hmark
  · exact ⟨'.', hpoint, by decide⟩
  · exact ⟨'e', hmark, by decide⟩

theorem normalLiteral_zero : NormalLiteral ['0'] :=
  normalLiteral_of_literal (@Literal.mk false _ _ _ _ _ .zero .none .none)

theorem spellWhole_cases (literal : Text) :
    spellWhole literal = ['0'] ∨ spellWhole literal = literal := by
  unfold spellWhole
  split
  · exact Or.inl rfl
  · exact Or.inr rfl

/-- How the spaced style writes a literal in normal form: a whole one digit for digit, any other
one by its value. -/
theorem renderNumber_spaced {literal : Text} (h : NormalLiteral literal) :
    (isWhole literal = true ∧ renderNumber .spaced literal = spellWhole literal) ∨
      ∃ x, isWhole literal = false ∧ Binary64.readLiteral? literal = some x ∧
        renderNumber .spaced literal = Style.spacedLayout.write x := by
  cases hwhole : isWhole literal with
  | true => exact Or.inl ⟨rfl, by simp [renderNumber, numberText?, spellNumber?, hwhole]⟩
  | false =>
      obtain ⟨x, hx⟩ := h.numberLiteral.readLiteral?
      exact Or.inr ⟨x, rfl, hx, by simp [renderNumber, numberText?, spellNumber?, hwhole, hx]⟩

/-- A number of the grammar can be spelled in either style. -/
theorem NumberLiteral.isSome_numberText? (style : Style) {literal : Text}
    (h : NumberLiteral literal) : (numberText? style literal).isSome = true := by
  cases style with
  | compact => rfl
  | spaced =>
      obtain ⟨x, hx⟩ := h.readLiteral?
      unfold numberText? spellNumber?
      simp only
      split
      · rfl
      · rw [hx]
        rfl

theorem writable_compact {literal : Text} (h : NormalLiteral literal) :
    NormalLiteral (renderNumber .compact literal) := h

/-- What the spaced style writes for a finite literal is a literal in normal form. -/
theorem writable_spaced {literal : Text} (h : NormalLiteral literal)
    (hfinite : FiniteLiteral literal) : NormalLiteral (renderNumber .spaced literal) := by
  rcases renderNumber_spaced h with ⟨-, heq⟩ | ⟨x, hwhole, hx, heq⟩
  · rw [heq]
    rcases spellWhole_cases literal with hzero | hsame
    · rw [hzero]
      exact normalLiteral_zero
    · rw [hsame]
      exact h
  · rw [heq]
    exact normalLiteral_write _ (hfinite hwhole x hx)

theorem spellWhole_idem (literal : Text) :
    spellWhole (spellWhole literal) = spellWhole literal := by
  unfold spellWhole
  split <;> rfl

/-- Writing a finite literal a second time changes nothing. -/
theorem renderNumber_idem {literal : Text} (h : NormalLiteral literal)
    (hfinite : FiniteLiteral literal) :
    renderNumber .spaced (renderNumber .spaced literal) = renderNumber .spaced literal := by
  have hwritable := writable_spaced h hfinite
  rcases renderNumber_spaced h with ⟨hwhole, heq⟩ | ⟨x, hwhole, hx, heq⟩
  · have hwhole' : isWhole (spellWhole literal) = true := by
      rcases spellWhole_cases literal with hzero | hsame
      · rw [hzero]
        rfl
      · rw [hsame]
        exact hwhole
    rw [heq] at hwritable ⊢
    rcases renderNumber_spaced hwritable with ⟨-, hagain⟩ | ⟨y, hwhole'', -, -⟩
    · rw [hagain, spellWhole_idem]
    · rw [hwhole'] at hwhole''
      contradiction
  · have hx' := hfinite hwhole x hx
    rw [heq] at hwritable ⊢
    rcases renderNumber_spaced hwritable with ⟨hwhole', -⟩ | ⟨y, -, hy, hagain⟩
    · rw [isWhole_write _ hx'] at hwhole'
      contradiction
    · rw [Style.spacedLayout.readLiteral?_write hx'] at hy
      cases hy
      exact hagain

end QueryLabel.Json
