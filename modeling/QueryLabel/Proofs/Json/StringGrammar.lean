import QueryLabel.Proofs.Json.Grammar
import QueryLabel.Proofs.Text.Utf8

/-!
The scanner of strings against the grammar.  It takes every text of the grammar and has then
decoded the bytes that spell it (`run?_of_spells`).  Conversely the bytes it has decoded come in
pieces, raw bytes and escaped characters; that they spell a text as a whole makes every raw byte
part of a raw character, because no escaped character begins with a byte that continues one.
-/

namespace QueryLabel.Json

open Text (ascii)

/-- A byte that stands for itself in a string. -/
def IsPlain (b : UInt8) : Prop :=
  b ≠ ascii '"' ∧ b ≠ ascii '\\' ∧ ¬ b < 0x20

theorem isPlain_of_le {b : UInt8} (h : 0x80 ≤ b.toNat) : IsPlain b := by
  refine ⟨?_, ?_, ?_⟩
  · rintro rfl
    exact absurd h (by decide)
  · rintro rfl
    exact absurd h (by decide)
  · rw [UInt8.lt_iff_toNat_lt]
    have hspace : (0x20 : UInt8).toNat = 0x20 := rfl
    omega

theorem isPlain_of_mem_encodeChar {c : Char} (hcontrol : 0x20 ≤ c.toNat) (hquote : c ≠ '"')
    (hslash : c ≠ '\\') {b : UInt8} (hb : b ∈ Utf8.encodeChar c) : IsPlain b := by
  by_cases hascii : c.toNat < 0x80
  · rw [Utf8.encodeChar_of_lt hascii, List.mem_singleton] at hb
    have hn : b.toNat = c.toNat := by rw [hb, Utf8.toNat_toUInt8 (by omega)]
    have hne : ∀ {other : Char}, c ≠ other → c.toNat ≠ other.toNat := by
      intro other h heq
      exact h (Char.toNat_inj.mp heq)
    refine ⟨?_, ?_, ?_⟩
    · rintro rfl
      exact hne hquote hn.symm
    · rintro rfl
      exact hne hslash hn.symm
    · rw [UInt8.lt_iff_toNat_lt]
      have hspace : (0x20 : UInt8).toNat = 0x20 := rfl
      omega
  · exact isPlain_of_le (Utf8.le_of_mem_encodeChar (by omega) hb)

theorem hexUnit?_of_hexUnit {s : List UInt8} {n : Nat} (h : HexUnit s n) :
    hexUnit? s = some n := by
  obtain ⟨ha, hb, hc, hd⟩ := h
  unfold byteChar at ha hb hc hd
  simp only [hexUnit?, List.foldlM, ha, hb, hc, hd, Option.map_some, Option.bind_eq_bind,
    Option.bind_some, Option.pure_def, Option.some.injEq]
  omega

theorem hexUnit_of_hexUnit? {a b c d : UInt8} {n : Nat} (h : hexUnit? [a, b, c, d] = some n) :
    HexUnit [a, b, c, d] n := by
  simp only [hexUnit?, List.foldlM, Option.bind_eq_bind, Option.bind_eq_some_iff,
    Option.map_eq_some_iff] at h
  obtain ⟨_, ⟨w, ha, rfl⟩, _, ⟨x, hb, rfl⟩, _, ⟨y, hc, rfl⟩, _, ⟨z, hd, rfl⟩, hn⟩ := h
  simp only [Option.pure_def, Option.some.injEq] at hn
  subst hn
  have hunit := HexUnit.mk (a := a) (b := b) (c := c) (d := d) ha hb hc hd
  have hvalue : (((0 * 16 + w) * 16 + x) * 16 + y) * 16 + z =
      w * 0x1000 + x * 0x100 + y * 0x10 + z := by omega
  rw [hvalue]
  exact hunit

namespace StringScan

/-- Go through bytes that all belong to the string. -/
def run? (scan : StringScan) : List UInt8 → Option StringScan
  | [] => some scan
  | b :: rest =>
      match scan.step b with
      | .ok (.more next) => next.run? rest
      | .ok (.closed _) | .error _ => none

theorem run?_cons {scan next : StringScan} {b : UInt8} (h : scan.step b = .ok (.more next))
    (s : List UInt8) : scan.run? (b :: s) = next.run? s := by
  simp [run?, h]

theorem run?_cons_eq_some {scan last : StringScan} {b : UInt8} {s : List UInt8}
    (h : scan.run? (b :: s) = some last) :
    ∃ next, scan.step b = .ok (.more next) ∧ next.run? s = some last := by
  unfold run? at h
  split at h
  · next next hstep => exact ⟨next, hstep, h⟩
  all_goals contradiction

theorem run?_append (scan : StringScan) (s r : List UInt8) :
    scan.run? (s ++ r) = (scan.run? s).bind fun next => next.run? r := by
  induction s generalizing scan with
  | nil => rfl
  | cons b s ih =>
      simp only [List.cons_append, run?]
      split
      · exact ih _
      all_goals rfl

theorem step_plain {b : UInt8} (h : IsPlain b) (decoded : List UInt8) :
    step ⟨.plain, decoded⟩ b = .ok (.more ⟨.plain, b :: decoded⟩) := by
  obtain ⟨hquote, hslash, hcontrol⟩ := h
  simp [step, hquote, hslash, hcontrol]

theorem run?_plain {s : List UInt8} (h : ∀ b ∈ s, IsPlain b) (decoded : List UInt8) :
    run? ⟨.plain, decoded⟩ s = some ⟨.plain, s.reverse ++ decoded⟩ := by
  induction s generalizing decoded with
  | nil => rfl
  | cons b s ih =>
      simp only [List.forall_mem_cons] at h
      rw [run?_cons (step_plain h.1 decoded), ih h.2]
      simp

/-- The four digits of a `\u` escape make a unit. -/
theorem run?_digits {s : List UInt8} {n : Nat} (hs : HexUnit s n) {lead : Option Nat}
    {decoded : List UInt8} {next : StringScan}
    (hunit : ∀ stage, unit ⟨stage, decoded⟩ lead n = .ok (.more next)) :
    run? ⟨.digits lead [], decoded⟩ s = some next := by
  have hhex := hexUnit?_of_hexUnit hs
  obtain @⟨a, b, c, d, _, _, _, _, _, _, _, _⟩ := hs
  have hlast : step ⟨.digits lead [a, b, c], decoded⟩ d = .ok (.more next) := by
    simp [step, hhex, hunit]
  have hfirst : step ⟨.digits lead [], decoded⟩ a = .ok (.more ⟨.digits lead [a], decoded⟩) :=
    rfl
  have hsecond : step ⟨.digits lead [a], decoded⟩ b =
      .ok (.more ⟨.digits lead [a, b], decoded⟩) := rfl
  have hthird : step ⟨.digits lead [a, b], decoded⟩ c =
      .ok (.more ⟨.digits lead [a, b, c], decoded⟩) := rfl
  rw [run?_cons hfirst, run?_cons hsecond, run?_cons hthird, run?_cons hlast]
  rfl

theorem run?_char {s : List UInt8} {c : Char} (h : SpellsChar s c) (decoded : List UInt8) :
    run? ⟨.plain, decoded⟩ s = some ⟨.plain, (Utf8.encodeChar c).reverse ++ decoded⟩ := by
  have hslash : step ⟨.plain, decoded⟩ (ascii '\\') = .ok (.more ⟨.escape, decoded⟩) := rfl
  have hmark : step ⟨.escape, decoded⟩ (ascii 'u') = .ok (.more ⟨.digits none [], decoded⟩) :=
    rfl
  cases h with
  | plain hcontrol hquote hslash =>
      exact run?_plain (fun b hb => isPlain_of_mem_encodeChar hcontrol hquote hslash hb) decoded
  | @letter mark c h =>
      simp only [letterEscapes, List.mem_cons, Prod.mk.injEq, List.not_mem_nil, or_false] at h
      rcases h with ⟨rfl, rfl⟩ | ⟨rfl, rfl⟩ | ⟨rfl, rfl⟩ | ⟨rfl, rfl⟩ | ⟨rfl, rfl⟩ |
        ⟨rfl, rfl⟩ | ⟨rfl, rfl⟩ | ⟨rfl, rfl⟩ <;> rfl
  | @unit s n hs hlead htrail =>
      rw [run?_cons hslash, run?_cons hmark]
      apply run?_digits hs
      intro stage
      simp [unit, hlead, htrail, push]
  | @pair s r m n hs hlead hr htrail =>
      have hnotrail : isTrail m = false := by
        simp only [isLead, isTrail, Bool.and_eq_true, decide_eq_true_eq] at hlead ⊢
        simp only [Bool.and_eq_false_iff, decide_eq_false_iff_not]
        omega
      have hfirst : run? ⟨.digits none [], decoded⟩ s = some ⟨.pairSlash m, decoded⟩ := by
        apply run?_digits hs
        intro stage
        simp [unit, hlead, hnotrail]
      have hsecond : run? ⟨.digits (some m) [], decoded⟩ r =
          some ⟨.plain, (Utf8.encodeChar (pairChar m n)).reverse ++ decoded⟩ := by
        apply run?_digits hr
        intro stage
        simp [unit, htrail, push]
      have hpairSlash : step ⟨.pairSlash m, decoded⟩ (ascii '\\') =
          .ok (.more ⟨.pairMark m, decoded⟩) := rfl
      have hpairMark : step ⟨.pairMark m, decoded⟩ (ascii 'u') =
          .ok (.more ⟨.digits (some m) [], decoded⟩) := rfl
      simp only [List.cons_append]
      rw [run?_cons hslash, run?_cons hmark, run?_append, hfirst]
      simp only [Option.bind_some]
      rw [run?_cons hpairSlash, run?_cons hpairMark, hsecond]

/-- A text of the grammar is taken as a whole, and its bytes are decoded. -/
theorem run?_of_spells {s : List UInt8} {text : Text} (h : SpellsText s text)
    (decoded : List UInt8) :
    run? ⟨.plain, decoded⟩ s = some ⟨.plain, (Utf8.encode text).reverse ++ decoded⟩ := by
  induction h generalizing decoded with
  | nil => rfl
  | cons hc _ ih =>
      rw [run?_append, run?_char hc, Option.bind_some, ih]
      simp [Utf8.encode_cons]

/-- The quote behind a text of the grammar closes the string. -/
theorem step_quote (text : Text) :
    step ⟨.plain, (Utf8.encode text).reverse⟩ (ascii '"') = .ok (.closed text) := by
  simp [step, close, Utf8.decode_encode]

/-! ### What was taken is a text of the grammar -/

/-- A `\u` escape cannot end before its four digits. -/
theorem digits_of_run? {lead : Option Nat} {decoded decoded' : List UInt8} {s : List UInt8}
    (h : run? ⟨.digits lead [], decoded⟩ s = some ⟨.plain, decoded'⟩) :
    ∃ digits n r next, s = digits ++ r ∧ HexUnit digits n ∧
      unit ⟨.digits lead (digits.take 3), decoded⟩ lead n = .ok (.more next) ∧
      next.run? r = some ⟨.plain, decoded'⟩ := by
  match s with
  | [] | [_] | [_, _] | [_, _, _] => simp [run?, step] at h
  | a :: b :: c :: d :: r =>
      obtain ⟨_, ha, h⟩ := run?_cons_eq_some h
      cases ha
      obtain ⟨_, hb, h⟩ := run?_cons_eq_some h
      cases hb
      obtain ⟨_, hc, h⟩ := run?_cons_eq_some h
      cases hc
      obtain ⟨next, hd, h⟩ := run?_cons_eq_some h
      simp only [step, List.nil_append, List.cons_append, List.length_cons, List.length_nil,
        Nat.lt_irrefl, ↓reduceIte] at hd
      split at hd
      · next n hn => exact ⟨[a, b, c, d], n, r, next, rfl, hexUnit_of_hexUnit? hn, hd, h⟩
      · contradiction

theorem letter_of_escapeChar? {b e : UInt8} (h : escapeChar? b = some e) :
    ∃ mark c, (mark, c) ∈ letterEscapes ∧ b = ascii mark ∧ Utf8.encodeChar c = [e] := by
  have hself : ∀ {mark : Char}, (mark, mark) ∈ letterEscapes → b = ascii mark → b = e →
      Utf8.encodeChar mark = [ascii mark] →
      ∃ mark c, (mark, c) ∈ letterEscapes ∧ b = ascii mark ∧ Utf8.encodeChar c = [e] := by
    intro mark hmem hmark he hbytes
    exact ⟨mark, mark, hmem, hmark, by rw [hbytes, ← hmark, he]⟩
  unfold escapeChar? at h
  split at h
  · next hb =>
      have he := Option.some.inj h
      rcases hb with hb | hb | hb
      · exact hself (by decide) hb he rfl
      · exact hself (by decide) hb he rfl
      · exact hself (by decide) hb he rfl
  split at h
  · next hb =>
      cases h
      exact ⟨'b', '\x08', by decide, hb, rfl⟩
  split at h
  · next hb =>
      cases h
      exact ⟨'f', '\x0c', by decide, hb, rfl⟩
  split at h
  · next hb =>
      cases h
      exact ⟨'n', '\n', by decide, hb, rfl⟩
  split at h
  · next hb =>
      cases h
      exact ⟨'r', '\r', by decide, hb, rfl⟩
  split at h
  · next hb =>
      cases h
      exact ⟨'t', '\t', by decide, hb, rfl⟩
  · contradiction

/-- Behind the first half of a pair the second half was taken. -/
theorem pair_of_run? {m : Nat} {decoded decoded' : List UInt8} {s : List UInt8}
    (h : run? ⟨.pairSlash m, decoded⟩ s = some ⟨.plain, decoded'⟩) :
    ∃ digits n r, s = ascii '\\' :: ascii 'u' :: digits ++ r ∧ HexUnit digits n ∧
      isTrail n = true ∧
      run? ⟨.plain, (Utf8.encodeChar (pairChar m n)).reverse ++ decoded⟩ r =
        some ⟨.plain, decoded'⟩ := by
  match s with
  | [] => simp [run?] at h
  | slash :: s =>
      obtain ⟨next, hslash, h⟩ := run?_cons_eq_some h
      simp only [step] at hslash
      split at hslash
      · next heq =>
          subst heq
          cases hslash
          match s with
          | [] => simp [run?] at h
          | mark :: s =>
              obtain ⟨next, hmark, h⟩ := run?_cons_eq_some h
              simp only [step] at hmark
              split at hmark
              · next heq =>
                  subst heq
                  cases hmark
                  obtain ⟨digits, n, r, next, rfl, hdigits, hunit, hrun⟩ := digits_of_run? h
                  simp only [unit] at hunit
                  split at hunit
                  · next htrail =>
                      cases hunit
                      exact ⟨digits, n, r, rfl, hdigits, htrail, hrun⟩
                  · contradiction
              · contradiction
      · contradiction

/-- Behind a backslash an escape was taken as a whole, or two that are a pair. -/
theorem escape_of_run? {decoded decoded' : List UInt8} {s : List UInt8}
    (h : run? ⟨.escape, decoded⟩ s = some ⟨.plain, decoded'⟩) :
    ∃ e c r, s = e ++ r ∧ SpellsChar (ascii '\\' :: e) c ∧
      run? ⟨.plain, (Utf8.encodeChar c).reverse ++ decoded⟩ r = some ⟨.plain, decoded'⟩ := by
  match s with
  | [] => simp [run?] at h
  | mark :: s =>
      obtain ⟨next, hmark, hrun⟩ := run?_cons_eq_some h
      simp only [step] at hmark
      split at hmark
      · next heq =>
          subst heq
          cases hmark
          obtain ⟨digits, n, r, next, rfl, hdigits, hunit, hrun⟩ := digits_of_run? hrun
          simp only [unit] at hunit
          split at hunit
          · contradiction
          · next htrail =>
              split at hunit
              · next hlead =>
                  cases hunit
                  obtain ⟨digits', n', r', rfl, hdigits', htrail', hrun'⟩ := pair_of_run? hrun
                  exact ⟨ascii 'u' :: digits ++ ascii '\\' :: ascii 'u' :: digits',
                    pairChar n n', r', by simp,
                    .pair hdigits hlead hdigits' htrail', hrun'⟩
              · next hlead =>
                  cases hunit
                  exact ⟨ascii 'u' :: digits, Char.ofNat n, r, by simp,
                    .unit hdigits (by simpa using hlead) (by simpa using htrail), hrun⟩
      · split at hmark
        · next e he =>
            cases hmark
            obtain ⟨letter, c, hmem, rfl, hbytes⟩ := letter_of_escapeChar? he
            refine ⟨[ascii letter], c, s, rfl, .letter hmem, ?_⟩
            rw [hbytes]
            exact hrun
        · contradiction

/-- A piece of a string: a raw byte, or a character that was escaped. -/
inductive Piece
  | raw (b : UInt8)
  | escaped (c : Char)

/-- The bytes that a piece decodes to. -/
def Piece.bytes : Piece → List UInt8
  | raw b => [b]
  | escaped c => Utf8.encodeChar c

/-- The pieces of a string as it is written. -/
inductive Pieces : List UInt8 → List Piece → Prop
  | nil : Pieces [] []
  | raw {b : UInt8} {s : List UInt8} {pieces : List Piece} (hb : IsPlain b)
      (h : Pieces s pieces) : Pieces (b :: s) (.raw b :: pieces)
  | escaped {e s : List UInt8} {c : Char} {pieces : List Piece} (he : SpellsChar e c)
      (h : Pieces s pieces) : Pieces (e ++ s) (.escaped c :: pieces)

/-- What was taken between characters comes in pieces, and these were decoded. -/
theorem pieces_of_run? {decoded decoded' : List UInt8} {s : List UInt8}
    (h : run? ⟨.plain, decoded⟩ s = some ⟨.plain, decoded'⟩) :
    ∃ pieces, Pieces s pieces ∧ decoded' = (pieces.flatMap Piece.bytes).reverse ++ decoded := by
  induction hn : s.length using Nat.strongRecOn generalizing s decoded with
  | ind n ih =>
      match s with
      | [] =>
          cases h
          exact ⟨[], .nil, rfl⟩
      | b :: s =>
          subst hn
          obtain ⟨next, hstep, hrun⟩ := run?_cons_eq_some h
          simp only [step] at hstep
          split at hstep
          · unfold close at hstep
            split at hstep <;> simp at hstep
          · next hquote =>
              split at hstep
              · next hslash =>
                  cases hstep
                  subst hslash
                  obtain ⟨e, c, r, rfl, hc, hrun⟩ := escape_of_run? hrun
                  have hshorter : r.length < (ascii '\\' :: (e ++ r)).length := by
                    rw [List.length_cons, List.length_append]
                    omega
                  obtain ⟨pieces, hpieces, hdecoded⟩ := ih r.length hshorter hrun rfl
                  exact ⟨.escaped c :: pieces, .escaped hc hpieces,
                    by simp [hdecoded, Piece.bytes]⟩
              · next hslash =>
                  split at hstep
                  · contradiction
                  · next hcontrol =>
                      cases hstep
                      obtain ⟨pieces, hpieces, hdecoded⟩ := ih s.length (by simp) hrun rfl
                      exact ⟨.raw b :: pieces, .raw ⟨hquote, hslash, hcontrol⟩ hpieces,
                        by simp [hdecoded, Piece.bytes]⟩

/-- Bytes that continue a character were raw: an escaped character does not begin with one. -/
theorem raw_of_continuations {s : List UInt8} {pieces : List Piece} (h : Pieces s pieces)
    {tail rest : List UInt8} (hbytes : pieces.flatMap Piece.bytes = tail ++ rest)
    (htail : ∀ b ∈ tail, Utf8.IsContinuation b) :
    ∃ s' pieces', s = tail ++ s' ∧ Pieces s' pieces' ∧ pieces'.flatMap Piece.bytes = rest := by
  induction tail generalizing s pieces with
  | nil => exact ⟨s, pieces, rfl, h, hbytes⟩
  | cons b tail ih =>
      simp only [List.forall_mem_cons] at htail
      cases h with
      | nil => simp at hbytes
      | raw hb h =>
          simp only [List.flatMap_cons, Piece.bytes, List.cons_append, List.nil_append,
            List.cons.injEq] at hbytes
          obtain ⟨rfl, hbytes⟩ := hbytes
          obtain ⟨s', pieces', rfl, hpieces', hrest⟩ := ih h hbytes htail.2
          exact ⟨s', pieces', rfl, hpieces', hrest⟩
      | @escaped _ _ c _ he h =>
          obtain ⟨a, others, hc, ha, _⟩ := Utf8.encodeChar_shape c
          simp only [List.flatMap_cons, Piece.bytes, hc, List.cons_append,
            List.cons.injEq] at hbytes
          exact absurd (hbytes.1 ▸ htail.1) ha

/-- A character whose spelling begins with a plain byte may stand for itself. -/
theorem spellsChar_of_isPlain {c : Char} {a : UInt8} {tail : List UInt8}
    (hc : Utf8.encodeChar c = a :: tail) (ha : IsPlain a) :
    SpellsChar (Utf8.encodeChar c) c := by
  obtain ⟨hquote, hslash, hcontrol⟩ := ha
  by_cases hascii : c.toNat < 0x80
  · rw [Utf8.encodeChar_of_lt hascii, List.cons.injEq] at hc
    have ha : a.toNat = c.toNat := by rw [← hc.1, Utf8.toNat_toUInt8 (by omega)]
    apply SpellsChar.plain
    · rw [UInt8.lt_iff_toNat_lt] at hcontrol
      have hspace : (0x20 : UInt8).toNat = 0x20 := rfl
      omega
    · rintro rfl
      exact hquote (UInt8.toNat_inj.mp ha)
    · rintro rfl
      exact hslash (UInt8.toNat_inj.mp ha)
  · apply SpellsChar.plain
    · omega
    · rintro rfl
      exact hascii (by decide)
    · rintro rfl
      exact hascii (by decide)

/-- Pieces that decode to the bytes of a text spell that text. -/
theorem spells_of_pieces {s : List UInt8} {pieces : List Piece} (h : Pieces s pieces)
    {text : Text} (hbytes : pieces.flatMap Piece.bytes = Utf8.encode text) :
    SpellsText s text := by
  induction text generalizing s pieces with
  | nil =>
      cases h with
      | nil => exact .nil
      | raw hb h => simp [Piece.bytes] at hbytes
      | @escaped _ _ c _ he h =>
          obtain ⟨a, tail, hc, _⟩ := Utf8.encodeChar_shape c
          simp [Piece.bytes, hc] at hbytes
  | cons c text ih =>
      rw [Utf8.encode_cons] at hbytes
      cases h with
      | nil =>
          obtain ⟨a, tail, hc, _⟩ := Utf8.encodeChar_shape c
          simp [hc] at hbytes
      | raw hb h =>
          obtain ⟨a, tail, hc, _, htail⟩ := Utf8.encodeChar_shape c
          have hplain := spellsChar_of_isPlain hc
          simp only [List.flatMap_cons, Piece.bytes, hc, List.cons_append, List.nil_append,
            List.cons.injEq] at hbytes
          obtain ⟨rfl, hbytes⟩ := hbytes
          obtain ⟨s', pieces', rfl, hpieces', hrest⟩ := raw_of_continuations h hbytes htail
          have hspells := SpellsText.cons (hplain hb) (ih hpieces' hrest)
          simpa [hc] using hspells
      | @escaped _ _ c' pieces he h =>
          rw [List.flatMap_cons, Piece.bytes] at hbytes
          have hdecode := congrArg Utf8.decode hbytes
          rw [Utf8.decode_encodeChar_append, Utf8.decode_encodeChar_append] at hdecode
          obtain ⟨rfl, -⟩ := List.cons.inj (Prod.mk.inj hdecode).1
          exact .cons he (ih h (List.append_cancel_left hbytes))

/-- A string is closed by a quote between characters, when the decoded bytes spell a text. -/
theorem of_step_closed {scan : StringScan} {b : UInt8} {text : Text}
    (h : scan.step b = .ok (.closed text)) :
    b = ascii '"' ∧ scan = ⟨.plain, (Utf8.encode text).reverse⟩ := by
  obtain ⟨stage, decoded⟩ := scan
  cases stage with
  | plain =>
      simp only [step] at h
      split at h
      · next hb =>
          unfold close at h
          split at h
          · next hdecode =>
              cases h
              have hbytes := Utf8.eq_encode_of_decode hdecode
              exact ⟨hb, by rw [← hbytes, List.reverse_reverse]⟩
          · contradiction
      · repeat' split at h
        all_goals simp at h
  | escape =>
      simp only [step] at h
      repeat' split at h
      all_goals simp at h
  | digits lead read =>
      simp only [step, unit] at h
      repeat' split at h
      all_goals simp at h
  | pairSlash lead =>
      simp only [step] at h
      split at h <;> simp at h
  | pairMark lead =>
      simp only [step] at h
      split at h <;> simp at h

/-- A string that is closed has a text of the grammar between its quotes. -/
theorem spells_of_closed {s : List UInt8} {scan : StringScan} {b : UInt8} {text : Text}
    (hrun : run? {} s = some scan) (hclose : scan.step b = .ok (.closed text)) :
    b = ascii '"' ∧ SpellsText s text := by
  obtain ⟨hb, rfl⟩ := of_step_closed hclose
  obtain ⟨pieces, hpieces, hdecoded⟩ := pieces_of_run? hrun
  rw [List.append_nil] at hdecoded
  exact ⟨hb, spells_of_pieces hpieces (List.reverse_inj.mp hdecoded).symm⟩

end StringScan

end QueryLabel.Json
