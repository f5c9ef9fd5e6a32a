import QueryLabel.Proofs.Json.Unambiguous

/-!
Tokens: marks, quoted strings, and words and numbers, which go as far as their bytes do.  A text
has at most one division into tokens (`lexed_unique`), and a list of tokens can be spread over a
text with any white space between them (`Spread`).
-/

namespace QueryLabel.Json

open Text (ascii)

/-- A byte of a word or a number: a digit, a letter, a sign or a point. -/
def isBare (b : UInt8) : Bool :=
  isDigit b || (ascii 'a' ≤ b && b ≤ ascii 'z') || (ascii 'A' ≤ b && b ≤ ascii 'Z') ||
    b = ascii '+' || b = ascii '-' || b = ascii '.'

/-- The marks between values. -/
def marks : List UInt8 :=
  "[]\x7b\x7d:,".toList.map ascii

/-- What stands between the quotes of a string, as a tokenizer sees it: a backslash takes the
byte behind it along, and no other quote stands there. -/
inductive Quoted : List UInt8 → Prop
  | nil : Quoted []
  | byte {b : UInt8} {s : List UInt8} (hquote : b ≠ ascii '"') (hslash : b ≠ ascii '\\')
      (h : Quoted s) : Quoted (b :: s)
  | escape {b : UInt8} {s : List UInt8} (h : Quoted s) : Quoted (ascii '\\' :: b :: s)

/-- A string between its quotes. -/
def quoted (s : List UInt8) : List UInt8 :=
  ascii '"' :: s ++ [ascii '"']

/-- A token: a mark, a word or a number, or a string. -/
inductive Token : List UInt8 → Prop
  | mark {b : UInt8} (hb : b ∈ marks) : Token [b]
  | bare {s : List UInt8} (hne : s ≠ []) (hs : ∀ b ∈ s, isBare b = true) : Token s
  | string {s : List UInt8} (hs : Quoted s) : Token (quoted s)

/-- The bytes do not go on with a word or a number. -/
def Stops (r : List UInt8) : Prop :=
  ∀ b ∈ r.head?, isBare b = false

/-- The tokens of a text.  A word or a number takes all bytes that it can. -/
inductive Lexed : List UInt8 → List (List UInt8) → Prop
  | nil {w : List UInt8} (hw : Spaces w) : Lexed w []
  | cons {w t r : List UInt8} {tokens : List (List UInt8)} (hw : Spaces w) (ht : Token t)
      (hend : (∀ b ∈ t, isBare b = true) → Stops r) (hr : Lexed r tokens) :
      Lexed (w ++ t ++ r) (t :: tokens)

/-- The tokens in their order, with any white space before, between and behind them. -/
inductive Spread : List (List UInt8) → List UInt8 → Prop
  | nil {w : List UInt8} (hw : Spaces w) : Spread [] w
  | cons {w t r : List UInt8} {tokens : List (List UInt8)} (hw : Spaces w)
      (hr : Spread tokens r) : Spread (t :: tokens) (w ++ t ++ r)

/-! ### Bare bytes -/

theorem isBare_of_isDigit {b : UInt8} (h : isDigit b = true) : isBare b = true := by
  simp [isBare, h]

theorem isBare_of_mem_marks {b : UInt8} (hb : b ∈ marks) : isBare b = false := by
  have hmarks : marks.any isBare = false := by decide
  exact Bool.eq_false_iff.mpr (List.any_eq_false.mp hmarks b hb)

theorem isBare_of_isSpace {b : UInt8} (h : isSpace b = true) : isBare b = false := by
  simp only [isSpace, decide_eq_true_eq] at h
  rcases h with rfl | rfl | rfl | rfl <;> decide

theorem isSpace_of_isBare {b : UInt8} (h : isBare b = true) : isSpace b = false := by
  cases hspace : isSpace b with
  | false => rfl
  | true => rw [isBare_of_isSpace hspace] at h; contradiction

/-- Bare bytes are ASCII. -/
theorem lt_of_isBare {b : UInt8} (h : isBare b = true) : b.toNat < 0x80 := by
  simp only [isBare, isDigit, Bool.or_eq_true, Bool.and_eq_true, decide_eq_true_eq,
    UInt8.le_iff_toNat_le] at h
  rcases h with ((((h | h) | h) | rfl) | rfl) | rfl
  · exact Nat.lt_of_le_of_lt h.2 (by decide)
  · exact Nat.lt_of_le_of_lt h.2 (by decide)
  · exact Nat.lt_of_le_of_lt h.2 (by decide)
  all_goals decide

theorem WholePart.isBare {s : List UInt8} (h : WholePart s) : ∀ b ∈ s, isBare b = true :=
  fun b hb => isBare_of_isDigit (h.isDigit b hb)

theorem FractionPart.isBare {s : List UInt8} (h : FractionPart s) :
    ∀ b ∈ s, isBare b = true := by
  cases h with
  | none => exact List.forall_mem_nil _
  | point hs => exact List.forall_mem_cons.mpr ⟨rfl, fun b hb => isBare_of_isDigit (hs.2 b hb)⟩

theorem ExponentPart.isBare {s : List UInt8} {power : Text} (h : ExponentPart s power) :
    ∀ b ∈ s, isBare b = true := by
  have hdigits : ∀ {s : List UInt8}, Digits s → ∀ b ∈ s, Json.isBare b = true :=
    fun hs b hb => isBare_of_isDigit (hs.2 b hb)
  cases h with
  | none => exact List.forall_mem_nil _
  | unsigned hmark hs =>
      refine List.forall_mem_cons.mpr ⟨?_, hdigits hs⟩
      rcases hmark with rfl | rfl <;> rfl
  | signed hmark hsign hs =>
      refine List.forall_mem_cons.mpr ⟨?_, List.forall_mem_cons.mpr ⟨?_, hdigits hs⟩⟩
      · rcases hmark with rfl | rfl <;> rfl
      · rcases hsign with rfl | rfl <;> rfl

/-- A number is made of bare bytes. -/
theorem SpellsNumber.isBare {s : List UInt8} {literal : Text} (h : SpellsNumber s literal) :
    ∀ b ∈ s, isBare b = true := by
  obtain @⟨sign, whole, fraction, exponent, power, hsign, hwhole, hfraction, hexponent⟩ := h
  intro b hb
  simp only [List.mem_append] at hb
  rcases hb with ((hb | hb) | hb) | hb
  · rcases hsign with rfl | rfl
    · cases hb
    · rw [List.mem_singleton.mp hb]
      rfl
  · exact hwhole.isBare b hb
  · exact hfraction.isBare b hb
  · exact hexponent.isBare b hb

theorem SpellsNumber.ne_nil {s : List UInt8} {literal : Text} (h : SpellsNumber s literal) :
    s ≠ [] := by
  obtain ⟨b, r, rfl, -⟩ := head_of_spells (.number h)
  exact List.cons_ne_nil b r

/-! ### Strings of the grammar are tokens -/

theorem Quoted.append {s r : List UInt8} (hs : Quoted s) (hr : Quoted r) : Quoted (s ++ r) := by
  induction hs with
  | nil => exact hr
  | byte hquote hslash _ ih => exact .byte hquote hslash ih
  | escape _ ih => exact .escape ih

theorem quoted_of_plain {s : List UInt8} (h : ∀ b ∈ s, IsPlain b) : Quoted s := by
  induction s with
  | nil => exact .nil
  | cons b s ih =>
      obtain ⟨⟨hquote, hslash, -⟩, hs⟩ := List.forall_mem_cons.mp h
      exact .byte hquote hslash (ih hs)

/-- A hexadecimal digit is spelled by a byte that stands for itself. -/
theorem isPlain_of_hexDigit? {b : UInt8} {d : Nat}
    (h : Text.hexDigit? (byteChar b) = some d) : IsPlain b := by
  have hnone : ∀ {c : UInt8}, Text.hexDigit? (byteChar c) = none → b ≠ c := by
    rintro c hc rfl
    rw [hc] at h
    contradiction
  refine ⟨hnone (by decide), hnone (by decide), ?_⟩
  intro hcontrol
  have hsmall : ∀ n, n < 0x20 → Text.hexDigit? (Char.ofNat n) = none := by decide
  rw [byteChar, hsmall b.toNat (UInt8.lt_iff_toNat_lt.mp hcontrol)] at h
  contradiction

theorem HexUnit.isPlain {s : List UInt8} {n : Nat} (h : HexUnit s n) : ∀ b ∈ s, IsPlain b := by
  obtain ⟨ha, hb, hc, hd⟩ := h
  simp only [List.forall_mem_cons]
  exact ⟨isPlain_of_hexDigit? ha, isPlain_of_hexDigit? hb, isPlain_of_hexDigit? hc,
    isPlain_of_hexDigit? hd, List.forall_mem_nil _⟩

theorem quoted_of_spellsChar {s : List UInt8} {c : Char} (h : SpellsChar s c) : Quoted s := by
  cases h with
  | plain hcontrol hquote hslash =>
      exact quoted_of_plain fun b hb => isPlain_of_mem_encodeChar hcontrol hquote hslash hb
  | letter hmark => exact .escape .nil
  | unit hs hlead htrail => exact .escape (quoted_of_plain hs.isPlain)
  | pair hs hlead hr htrail =>
      exact .escape ((quoted_of_plain hs.isPlain).append (.escape (quoted_of_plain hr.isPlain)))

theorem quoted_of_spellsText {s : List UInt8} {text : Text} (h : SpellsText s text) :
    Quoted s := by
  induction h with
  | nil => exact .nil
  | cons hc _ ih => exact (quoted_of_spellsChar hc).append ih

theorem token_word {s : List UInt8} (hne : s ≠ []) (hs : s.all isBare = true) : Token s :=
  .bare hne (List.all_eq_true.mp hs)

/-! ### A text has one division into tokens -/

section Unique

variable {s s' r r' t t' : List UInt8}

/-- A token does not begin with white space. -/
theorem Token.head (h : Token t) : ∃ b u, t = b :: u ∧ isSpace b = false := by
  cases h with
  | mark hb =>
      have hspace : marks.any isSpace = false := by decide
      exact ⟨_, _, rfl, Bool.eq_false_iff.mpr (List.any_eq_false.mp hspace _ hb)⟩
  | bare hne hs =>
      cases t with
      | nil => exact absurd rfl hne
      | cons b u => exact ⟨b, u, rfl, isSpace_of_isBare (hs b List.mem_cons_self)⟩
  | string hs => exact ⟨_, _, rfl, rfl⟩

theorem quoted_unique (h : Quoted s) (h' : Quoted s')
    (heq : s ++ ascii '"' :: r = s' ++ ascii '"' :: r') : s = s' ∧ r = r' := by
  induction h generalizing s' with
  | nil =>
      cases h' with
      | nil => exact ⟨rfl, (List.cons.inj heq).2⟩
      | byte hquote => exact absurd (List.cons.inj heq).1.symm hquote
      | escape => cases (List.cons.inj heq).1
  | byte hquote hslash _ ih =>
      cases h' with
      | nil => exact absurd (List.cons.inj heq).1 hquote
      | byte hquote' hslash' h' =>
          obtain ⟨rfl, htail⟩ := List.cons.inj heq
          obtain ⟨rfl, hrest⟩ := ih h' htail
          exact ⟨rfl, hrest⟩
      | escape => exact absurd (List.cons.inj heq).1 hslash
  | escape _ ih =>
      cases h' with
      | nil => cases (List.cons.inj heq).1
      | byte hquote' hslash' => exact absurd (List.cons.inj heq).1.symm hslash'
      | escape h' =>
          obtain ⟨rfl, htail⟩ := List.cons.inj (List.cons.inj heq).2
          obtain ⟨rfl, hrest⟩ := ih h' htail
          exact ⟨rfl, hrest⟩

theorem bare_unique (hs : ∀ b ∈ s, isBare b = true) (hs' : ∀ b ∈ s', isBare b = true)
    (hr : Stops r) (hr' : Stops r') (heq : s ++ r = s' ++ r') : s = s' ∧ r = r' := by
  induction s generalizing s' with
  | nil =>
      cases s' with
      | nil => exact ⟨rfl, heq⟩
      | cons b s' =>
          have hb := hr b (by rw [show r = b :: (s' ++ r') from heq]; rfl)
          rw [hs' b List.mem_cons_self] at hb
          cases hb
  | cons b s ih =>
      obtain ⟨hb, hs⟩ := List.forall_mem_cons.mp hs
      cases s' with
      | nil =>
          have hb' := hr' b (by rw [show r' = b :: (s ++ r) from heq.symm]; rfl)
          rw [hb] at hb'
          cases hb'
      | cons b' s' =>
          obtain ⟨rfl, htail⟩ := List.cons.inj heq
          obtain ⟨rfl, hrest⟩ := ih hs (List.forall_mem_cons.mp hs').2 htail
          exact ⟨rfl, hrest⟩

/-- What kind of token stands somewhere is told by its first byte. -/
theorem token_unique (h : Token t) (h' : Token t') (hend : (∀ b ∈ t, isBare b = true) → Stops r)
    (hend' : (∀ b ∈ t', isBare b = true) → Stops r') (heq : t ++ r = t' ++ r') :
    t = t' ∧ r = r' := by
  have hquote : ascii '"' ∉ marks := by decide
  have hbare : ∀ {u : List UInt8}, (∀ b ∈ u, isBare b = true) → u ≠ [] →
      ∃ b v, u = b :: v ∧ isBare b = true := by
    intro u hu hne
    cases u with
    | nil => exact absurd rfl hne
    | cons b v => exact ⟨b, v, rfl, hu b List.mem_cons_self⟩
  cases h with
  | mark hb =>
      cases h' with
      | mark hb' =>
          obtain ⟨rfl, hrest⟩ := List.cons.inj heq
          exact ⟨rfl, hrest⟩
      | bare hne' hs' =>
          obtain ⟨b', v, rfl, hb'⟩ := hbare hs' hne'
          rw [← (List.cons.inj heq).1, isBare_of_mem_marks hb] at hb'
          contradiction
      | string hs' => exact absurd ((List.cons.inj heq).1 ▸ hb) hquote
  | bare hne hs =>
      cases h' with
      | mark hb' =>
          obtain ⟨b, v, rfl, hb⟩ := hbare hs hne
          rw [(List.cons.inj heq).1, isBare_of_mem_marks hb'] at hb
          contradiction
      | bare hne' hs' => exact bare_unique hs hs' (hend hs) (hend' hs') heq
      | string hs' =>
          obtain ⟨b, v, rfl, hb⟩ := hbare hs hne
          rw [(List.cons.inj heq).1] at hb
          contradiction
  | string hs =>
      cases h' with
      | mark hb' => exact absurd ((List.cons.inj heq).1 ▸ hb') hquote
      | bare hne' hs' =>
          obtain ⟨b', v, rfl, hb'⟩ := hbare hs' hne'
          rw [← (List.cons.inj heq).1] at hb'
          contradiction
      | string hs' =>
          obtain ⟨rfl, hrest⟩ := quoted_unique hs hs' (by simpa [quoted] using heq)
          exact ⟨rfl, hrest⟩

theorem spaces_ne_token {w w' : List UInt8} (hw : Spaces w) (ht : Token t) :
    w ≠ w' ++ t ++ r := by
  obtain ⟨b, u, rfl, hb⟩ := ht.head
  rintro rfl
  rw [isSpace_of_spaces hw b (by simp)] at hb
  contradiction

theorem lexed_unique {tokens tokens' : List (List UInt8)} (h : Lexed s tokens)
    (h' : Lexed s tokens') : tokens = tokens' := by
  induction h generalizing tokens' with
  | nil hw =>
      cases h' with
      | nil => rfl
      | cons hw' ht' => exact absurd rfl (spaces_ne_token hw ht')
  | @cons w t r tokens hw ht hend _ ih =>
      generalize hsame : w ++ t ++ r = whole at h'
      cases h' with
      | nil hw' => exact absurd hsame.symm (spaces_ne_token hw' ht)
      | @cons w' t' r' tokens' hw' ht' hend' h' =>
          obtain ⟨b, u, rfl, hb⟩ := ht.head
          obtain ⟨b', u', rfl, hb'⟩ := ht'.head
          have hparts : w ++ b :: (u ++ r) = w' ++ b' :: (u' ++ r') := by simpa using hsame
          obtain ⟨-, rfl, htail⟩ := spaces_unique hw hw' hb hb' hparts
          have htokens : b :: u ++ r = b :: u' ++ r' := congrArg (b :: ·) htail
          obtain ⟨htoken, rfl⟩ := token_unique ht ht' hend hend' htokens
          rw [htoken, ih h']

end Unique

end QueryLabel.Json
