import QueryLabel.Proofs.Json.Token

/-!
Documents as texts.  A document of the grammar is put together from single bytes of ASCII and from
the characters of its strings, so what holds of these and of whatever they are put together to
holds of the document (`Composable`).  In this way documents are well-formed UTF-8, and their `\u`
escapes of surrogates come in pairs, wherever in the document they stand.
-/

namespace QueryLabel.Json

open Text (ascii)

/-- A property of bytes that putting together keeps, and that ASCII outside of escapes and the
characters of strings have. -/
structure Composable (P : List UInt8 → Prop) : Prop where
  nil : P []
  append {s r : List UInt8} (hs : P s) (hr : P r) : P (s ++ r)
  byte {b : UInt8} (hascii : b.toNat < 0x80) (hslash : b ≠ ascii '\\') : P [b]
  char {s : List UInt8} {c : Char} (hc : SpellsChar s c) : P s

namespace Composable

variable {P : List UInt8 → Prop}

theorem bytes (h : Composable P) {s : List UInt8}
    (hs : ∀ b ∈ s, b.toNat < 0x80 ∧ b ≠ ascii '\\') : P s := by
  induction s with
  | nil => exact h.nil
  | cons b s ih =>
      obtain ⟨⟨hascii, hslash⟩, hs⟩ := List.forall_mem_cons.mp hs
      exact h.append (h.byte hascii hslash) (ih hs)

theorem cons (h : Composable P) {b : UInt8} {s : List UInt8}
    (hb : b.toNat < 0x80 ∧ b ≠ ascii '\\') (hs : P s) : P (b :: s) :=
  h.append (h.byte hb.1 hb.2) hs

theorem enclose (h : Composable P) {l r : UInt8} {s : List UInt8}
    (hl : l.toNat < 0x80 ∧ l ≠ ascii '\\') (hr : r.toNat < 0x80 ∧ r ≠ ascii '\\') (hs : P s) :
    P (l :: s ++ [r]) :=
  h.append (h.cons hl hs) (h.byte hr.1 hr.2)

theorem spaces (h : Composable P) {w : List UInt8} (hw : Spaces w) : P w := by
  apply h.bytes
  intro b hb
  rcases hw b hb with rfl | rfl | rfl | rfl <;> decide

theorem text (h : Composable P) {s : List UInt8} {text : Text} (hs : SpellsText s text) :
    P s := by
  induction hs with
  | nil => exact h.nil
  | cons hc _ ih => exact h.append (h.char hc) ih

theorem bare (h : Composable P) {s : List UInt8} (hs : ∀ b ∈ s, isBare b = true) : P s := by
  apply h.bytes
  intro b hb
  have hbare := hs b hb
  refine ⟨lt_of_isBare hbare, ?_⟩
  rintro rfl
  cases hbare

mutual

theorem spells (h : Composable P) {s : List UInt8} {tree : Json} (hs : Spells s tree) :
    P s := by
  cases hs with
  | null | true | false => exact h.bare (List.all_eq_true.mp rfl)
  | number hs => exact h.bare hs.isBare
  | string hs => exact h.enclose (by decide) (by decide) (h.text hs)
  | emptyArray hw => exact h.enclose (by decide) (by decide) (h.spaces hw)
  | array hs => exact h.enclose (by decide) (by decide) (h.items hs)
  | emptyObject hw => exact h.enclose (by decide) (by decide) (h.spaces hw)
  | object hs => exact h.enclose (by decide) (by decide) (h.members hs)

theorem items (h : Composable P) {s : List UInt8} {items : List Json}
    (hs : SpellsItems s items) : P s := by
  cases hs with
  | one ha hs hb => exact h.append (h.append (h.spaces ha) (h.spells hs)) (h.spaces hb)
  | cons ha hs hb hr =>
      have hitem := h.append (h.append (h.spaces ha) (h.spells hs)) (h.spaces hb)
      exact h.append hitem (h.cons (by decide) (h.items hr))

theorem member (h : Composable P) {s : List UInt8} {member : Text × Json}
    (hs : SpellsMember s member) : P s := by
  cases hs with
  | mk ha hkey hb hc hs hd =>
      have hvalue := h.append (h.append (h.spaces hc) (h.spells hs)) (h.spaces hd)
      have hcolon := h.append (h.spaces hb) (h.cons (b := ascii ':') (by decide) hvalue)
      have hbehind := h.append (h.text hkey) (h.cons (b := ascii '"') (by decide) hcolon)
      simpa using h.append (h.spaces ha) (h.cons (b := ascii '"') (by decide) hbehind)

theorem members (h : Composable P) {s : List UInt8} {members : Members}
    (hs : SpellsMembers s members) : P s := by
  cases hs with
  | one hs => exact h.member hs
  | cons hs hr => exact h.append (h.member hs) (h.cons (by decide) (h.members hr))

end

theorem document (h : Composable P) {document : List UInt8} {tree : Json}
    (hdocument : Document document tree) : P document := by
  cases hdocument with
  | mk ha hs hb hdepth => exact h.append (h.append (h.spaces ha) (h.spells hs)) (h.spaces hb)

end Composable

/-! ### Well-formed UTF-8 -/

theorem wellFormed_ascii {s : List UInt8} (h : ∀ b ∈ s, b.toNat < 0x80) : Utf8.WellFormed s :=
  Utf8.wellFormed_iff.mpr ⟨s.map byteChar, (encode_byteChars h).symm⟩

theorem lt_of_hexDigit? {b : UInt8} {d : Nat} (h : Text.hexDigit? (byteChar b) = some d) :
    b.toNat < 0x80 := by
  have hchar : (byteChar b).toNat = b.toNat :=
    Utf8.toNat_ofNat_of_lt (Nat.lt_trans b.toNat_lt (by decide))
  have hle : ∀ {c e : Char}, c ≤ e → c.toNat ≤ e.toNat := fun hce => hce
  rw [← hchar]
  simp only [Text.hexDigit?, Char.isDigit, Bool.and_eq_true, decide_eq_true_eq] at h
  split at h
  · next hdigit => exact Nat.lt_of_le_of_lt (hle hdigit.2) (by decide)
  split at h
  · next hsmall => exact Nat.lt_of_le_of_lt (hle hsmall.2) (by decide)
  split at h
  · next hlarge => exact Nat.lt_of_le_of_lt (hle hlarge.2) (by decide)
  · cases h

theorem HexUnit.lt {s : List UInt8} {n : Nat} (h : HexUnit s n) : ∀ b ∈ s, b.toNat < 0x80 := by
  obtain ⟨ha, hb, hc, hd⟩ := h
  simp only [List.forall_mem_cons]
  exact ⟨lt_of_hexDigit? ha, lt_of_hexDigit? hb, lt_of_hexDigit? hc, lt_of_hexDigit? hd,
    List.forall_mem_nil _⟩

/-- A character of a string is well-formed, as it stands and as an escape. -/
theorem wellFormed_of_spellsChar {s : List UInt8} {c : Char} (h : SpellsChar s c) :
    Utf8.WellFormed s := by
  cases h with
  | plain => exact Utf8.wellFormed_iff.mpr ⟨[c], by simp [Utf8.encode]⟩
  | letter hmark =>
      have hletters : ∀ escape ∈ letterEscapes, (ascii escape.1).toNat < 0x80 := by decide
      apply wellFormed_ascii
      simp only [List.forall_mem_cons]
      exact ⟨by decide, hletters _ hmark, List.forall_mem_nil _⟩
  | unit hs hlead htrail =>
      apply wellFormed_ascii
      simp only [List.forall_mem_cons]
      exact ⟨by decide, by decide, hs.lt⟩
  | pair hs hlead hr htrail =>
      apply wellFormed_ascii
      simp only [List.cons_append, List.forall_mem_cons, List.forall_mem_append]
      exact ⟨by decide, by decide, hs.lt, by decide, by decide, hr.lt⟩

theorem composable_wellFormed : Composable Utf8.WellFormed where
  nil := Utf8.wellFormed_iff.mpr ⟨[], rfl⟩
  append hs hr := hs.append hr
  byte hascii _ := wellFormed_ascii (List.forall_mem_singleton.mpr hascii)
  char hc := wellFormed_of_spellsChar hc

/-! ### Escapes of surrogates -/

/-- Whether the bytes take the byte behind them along as an escape: they end with a backslash that
is not itself taken along. -/
def endsInSlash (s : List UInt8) : Bool :=
  s.foldl (fun taken b => !taken && b == ascii '\\') false

/-- A `\u` escape of a unit. -/
inductive UnitEscape : List UInt8 → Nat → Prop
  | mk {s : List UInt8} {n : Nat} (hs : HexUnit s n) :
      UnitEscape (ascii '\\' :: ascii 'u' :: s) n

/-- Between these bytes, an escape of a unit is no lone surrogate: behind the first half of a pair
stands an escape of a second half, and in front of a second half one of a first. -/
structure Matched (before after : List UInt8) (n : Nat) : Prop where
  trailBehind : isLead n = true →
    ∃ escape m rest, after = escape ++ rest ∧ UnitEscape escape m ∧ isTrail m = true
  leadBefore : isTrail n = true →
    ∃ rest escape m, before = rest ++ escape ∧ endsInSlash rest = false ∧ UnitEscape escape m ∧
      isLead m = true

/-- No escape of a unit is a lone surrogate. -/
def Paired (s : List UInt8) : Prop :=
  ∀ {before escape after : List UInt8} {n : Nat}, s = before ++ escape ++ after →
    endsInSlash before = false → UnitEscape escape n → Matched before after n

theorem endsInSlash_append {s r : List UInt8} (h : endsInSlash s = false) :
    endsInSlash (s ++ r) = endsInSlash r := by
  unfold endsInSlash at *
  rw [List.foldl_append, h]

theorem Matched.append {p before after : List UInt8} {n : Nat} (hp : endsInSlash p = false)
    (h : Matched before after n) : Matched (p ++ before) after n := by
  refine ⟨h.trailBehind, ?_⟩
  intro htrail
  obtain ⟨rest, escape, m, rfl, hrest, hescape, hlead⟩ := h.leadBefore htrail
  exact ⟨p ++ rest, escape, m, by simp, by rw [endsInSlash_append hp, hrest], hescape, hlead⟩

/-- An escape stands behind bytes that are no backslashes, or does not begin before them. -/
theorem behind_of_append {p s before tail : List UInt8} (hp : ∀ b ∈ p, b ≠ ascii '\\')
    (h : p ++ s = before ++ ascii '\\' :: tail) :
    ∃ before', before = p ++ before' ∧ s = before' ++ ascii '\\' :: tail := by
  induction p generalizing before with
  | nil => exact ⟨before, rfl, h⟩
  | cons b p ih =>
      obtain ⟨hb, hp⟩ := List.forall_mem_cons.mp hp
      cases before with
      | nil => exact absurd (List.cons.inj h).1 hb
      | cons c before =>
          obtain ⟨rfl, htail⟩ := List.cons.inj h
          obtain ⟨before', rfl, hs⟩ := ih hp htail
          exact ⟨before', rfl, hs⟩

theorem HexUnit.unique {s s' r r' : List UInt8} {n n' : Nat} (h : HexUnit s n)
    (h' : HexUnit s' n') (heq : s ++ r = s' ++ r') : n = n' ∧ r = r' := by
  have hvalue := hexUnit?_of_hexUnit h
  have hvalue' := hexUnit?_of_hexUnit h'
  cases h with
  | mk =>
    cases h' with
    | mk =>
      simp only [List.cons_append, List.nil_append, List.cons.injEq] at heq
      obtain ⟨rfl, rfl, rfl, rfl, rfl⟩ := heq
      rw [hvalue] at hvalue'
      exact ⟨Option.some.inj hvalue', rfl⟩

/-- Bytes in which every backslash begins an escape, and the escapes of surrogates are pairs. -/
inductive Escapes : List UInt8 → Prop
  | nil : Escapes []
  | byte {b : UInt8} {s : List UInt8} (hb : b ≠ ascii '\\') (h : Escapes s) : Escapes (b :: s)
  | letter {mark : UInt8} {s : List UInt8} (hmark : mark ≠ ascii 'u') (h : Escapes s) :
      Escapes (ascii '\\' :: mark :: s)
  | unit {d s : List UInt8} {n : Nat} (hd : HexUnit d n) (hlead : isLead n = false)
      (htrail : isTrail n = false) (h : Escapes s) :
      Escapes (ascii '\\' :: ascii 'u' :: d ++ s)
  | pair {d e s : List UInt8} {m n : Nat} (hd : HexUnit d m) (hlead : isLead m = true)
      (he : HexUnit e n) (htrail : isTrail n = true) (h : Escapes s) :
      Escapes (ascii '\\' :: ascii 'u' :: d ++ ascii '\\' :: ascii 'u' :: e ++ s)

theorem Escapes.append {s r : List UInt8} (hs : Escapes s) (hr : Escapes r) :
    Escapes (s ++ r) := by
  induction hs with
  | nil => exact hr
  | byte hb _ ih => exact .byte hb ih
  | letter hmark _ ih => exact .letter hmark ih
  | unit hd hlead htrail _ ih => simpa using Escapes.unit hd hlead htrail ih
  | pair hd hlead he htrail _ ih => simpa using Escapes.pair hd hlead he htrail ih

theorem escapes_plain {s : List UInt8} (h : ∀ b ∈ s, b ≠ ascii '\\') : Escapes s := by
  induction s with
  | nil => exact .nil
  | cons b s ih =>
      obtain ⟨hb, hs⟩ := List.forall_mem_cons.mp h
      exact .byte hb (ih hs)

theorem escapes_of_spellsChar {s : List UInt8} {c : Char} (h : SpellsChar s c) : Escapes s := by
  cases h with
  | plain hcontrol hquote hslash =>
      exact escapes_plain fun b hb => (isPlain_of_mem_encodeChar hcontrol hquote hslash hb).2.1
  | letter hmark =>
      have hletters : ∀ escape ∈ letterEscapes, ascii escape.1 ≠ ascii 'u' := by decide
      exact .letter (hletters _ hmark) .nil
  | unit hs hlead htrail => simpa using Escapes.unit hs hlead htrail .nil
  | pair hs hlead hr htrail => simpa using Escapes.pair hs hlead hr htrail .nil

theorem composable_escapes : Composable Escapes where
  nil := .nil
  append hs hr := hs.append hr
  byte _ hslash := .byte hslash .nil
  char hc := escapes_of_spellsChar hc

theorem HexUnit.ne_slash {s : List UInt8} {n : Nat} (h : HexUnit s n) :
    ∀ b ∈ ascii 'u' :: s, b ≠ ascii '\\' :=
  List.forall_mem_cons.mpr ⟨by decide, fun b hb => (h.isPlain b hb).2.1⟩

theorem HexUnit.endsInSlash {s : List UInt8} {n : Nat} (h : HexUnit s n) :
    Json.endsInSlash (ascii '\\' :: ascii 'u' :: s) = false := by
  have hplain := h.isPlain
  cases h with
  | mk =>
    simp only [List.forall_mem_cons] at hplain
    simp [Json.endsInSlash, hplain.1.2.1, hplain.2.1.2.1, hplain.2.2.1.2.1, hplain.2.2.2.1.2.1]

theorem not_trail_of_lead {n : Nat} (h : isLead n = true) : isTrail n = false := by
  simp only [isLead, isTrail, Bool.and_eq_true, decide_eq_true_eq, Bool.and_eq_false_iff,
    decide_eq_false_iff_not] at *
  omega

theorem matched_of_neither {before after : List UInt8} {n : Nat} (hlead : isLead n = false)
    (htrail : isTrail n = false) : Matched before after n := by
  constructor
  · intro h
    rw [hlead] at h
    contradiction
  · intro h
    rw [htrail] at h
    contradiction

/-- An escape begins with a `\u` escape in front of it, or behind it. -/
theorem behind_of_unit {d s before tail : List UInt8} {n : Nat} (hd : HexUnit d n)
    (h : ascii '\\' :: ascii 'u' :: d ++ s = before ++ ascii '\\' :: tail) :
    before = [] ∨ ∃ before', before = ascii '\\' :: ascii 'u' :: d ++ before' ∧
      s = before' ++ ascii '\\' :: tail := by
  cases before with
  | nil => exact Or.inl rfl
  | cons b before =>
      obtain ⟨rfl, htail⟩ := List.cons.inj h
      obtain ⟨before', rfl, hs⟩ := behind_of_append hd.ne_slash htail
      exact Or.inr ⟨before', rfl, hs⟩

/-- Where every backslash begins an escape and surrogates are pairs, no escape of a unit that
stands anywhere between the bytes is a lone surrogate. -/
theorem paired_of_escapes {s : List UInt8} (h : Escapes s) : Paired s := by
  intro before escape after n heq hbefore hescape
  obtain @⟨digits, n, hdigits⟩ := hescape
  replace heq : s = before ++ ascii '\\' :: (ascii 'u' :: (digits ++ after)) := by
    simpa using heq
  induction h generalizing before with
  | nil => simp at heq
  | @byte b s hb _ ih =>
      obtain ⟨before, rfl, hs⟩ := behind_of_append (List.forall_mem_singleton.mpr hb) heq
      have hskip : endsInSlash [b] = false := by simp [endsInSlash, hb]
      rw [endsInSlash_append hskip] at hbefore
      exact (ih hbefore hs).append hskip
  | @letter mark s hmark _ ih =>
      have hskip : endsInSlash [ascii '\\', mark] = false := by simp [endsInSlash]
      rcases before with _ | ⟨b, _ | ⟨c, before⟩⟩
      · exact absurd (List.cons.inj (List.cons.inj heq).2).1 hmark
      · obtain ⟨rfl, -⟩ := List.cons.inj heq
        contradiction
      · obtain ⟨rfl, htail⟩ := List.cons.inj heq
        obtain ⟨rfl, hs⟩ := List.cons.inj htail
        rw [show ascii '\\' :: mark :: before = [ascii '\\', mark] ++ before from rfl,
          endsInSlash_append hskip] at hbefore
        exact (ih hbefore hs).append hskip
  | @unit d s m hd hlead htrail _ ih =>
      rcases behind_of_unit hd heq with rfl | ⟨before, rfl, hs⟩
      · obtain ⟨rfl, -⟩ := hd.unique hdigits (List.cons.inj (List.cons.inj heq).2).2
        exact matched_of_neither hlead htrail
      · rw [endsInSlash_append hd.endsInSlash] at hbefore
        exact (ih hbefore hs).append hd.endsInSlash
  | @pair d e s m m' hd hlead he htrail _ ih =>
      rw [List.append_assoc] at heq
      rcases behind_of_unit hd heq with rfl | ⟨before, rfl, hsecond⟩
      · -- the escape is the first half
        obtain ⟨rfl, hafter⟩ := hd.unique hdigits (List.cons.inj (List.cons.inj heq).2).2
        refine ⟨fun _ => ⟨_, m', s, hafter.symm, .mk he, htrail⟩, fun h => ?_⟩
        rw [not_trail_of_lead hlead] at h
        contradiction
      rw [endsInSlash_append hd.endsInSlash] at hbefore
      rcases behind_of_unit he hsecond with rfl | ⟨before, rfl, hs⟩
      · -- the escape is the second half
        obtain ⟨rfl, -⟩ := he.unique hdigits (List.cons.inj (List.cons.inj hsecond).2).2
        refine ⟨fun h => ?_, fun _ => ⟨[], _, m, List.append_nil _, rfl, .mk hd, hlead⟩⟩
        rw [not_trail_of_lead h] at htrail
        contradiction
      · rw [endsInSlash_append he.endsInSlash] at hbefore
        exact ((ih hbefore hs).append he.endsInSlash).append hd.endsInSlash

/-- A document is well-formed UTF-8, and no escape in it is a lone surrogate. -/
theorem text_of_document {document : List UInt8} {tree : Json} (h : Document document tree) :
    Utf8.WellFormed document ∧ Paired document :=
  ⟨composable_wellFormed.document h, paired_of_escapes (composable_escapes.document h)⟩

end QueryLabel.Json
