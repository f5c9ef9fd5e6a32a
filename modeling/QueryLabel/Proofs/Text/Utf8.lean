import QueryLabel.Text.Utf8

/-!
Reading UTF-8 undoes writing it, and takes nothing but what writing produces: the bytes are the
spelling of the characters that were read, followed by the bytes that were left.  What is written
is what the standard library takes for well-formed (`wellFormed_iff`).
-/

namespace QueryLabel.Utf8

/-- A byte that continues a character. -/
def IsContinuation (b : UInt8) : Prop :=
  0x80 ≤ b.toNat ∧ b.toNat < 0xC0

theorem continuation?_eq_some {b : UInt8} {n : Nat} (h : continuation? b = some n) :
    IsContinuation b ∧ b.toNat = 0x80 + n := by
  unfold continuation? at h
  split at h
  · next hb =>
      have hn := Option.some.inj h
      exact ⟨hb, by omega⟩
  · contradiction

theorem toNat_toUInt8 {n : Nat} (h : n < 0x100) : n.toUInt8.toNat = n := by
  simp only [Nat.toUInt8, UInt8.toNat_ofNat']
  omega

theorem toUInt8_of_toNat_eq {b : UInt8} {n : Nat} (h : b.toNat = n) : n.toUInt8 = b := by
  subst h
  simp

theorem continuation?_of_lt {n : Nat} (h : n < 0x40) :
    continuation? (0x80 + n).toUInt8 = some n := by
  unfold continuation?
  rw [toNat_toUInt8 (by omega), if_pos (by omega)]
  simp

theorem toNat_ofNatAux {n : Nat} (h : n.isValidChar) : (Char.ofNatAux n h).toNat = n := rfl

theorem scalar?_eq_some {least n : Nat} {c : Char} (h : scalar? least n = some c) :
    c.toNat = n ∧ least ≤ n := by
  unfold scalar? at h
  by_cases hvalid : n.isValidChar
  · rw [dif_pos hvalid] at h
    by_cases hle : least ≤ n
    · rw [if_pos hle] at h
      rw [← Option.some.inj h]
      exact ⟨toNat_ofNatAux hvalid, hle⟩
    · rw [if_neg hle] at h
      contradiction
  · rw [dif_neg hvalid] at h
    contradiction

theorem toNat_lt (c : Char) : c.toNat < 0x110000 := by
  have hvalid : c.toNat.isValidChar := c.valid
  unfold Nat.isValidChar at hvalid
  omega

theorem scalar?_toNat {least : Nat} {c : Char} (h : least ≤ c.toNat) :
    scalar? least c.toNat = some c := by
  have hvalid : c.toNat.isValidChar := c.valid
  unfold scalar?
  rw [dif_pos hvalid, if_pos h]
  rfl

theorem toNat_ofNat_of_lt {n : Nat} (h : n < 0xD800) : (Char.ofNat n).toNat = n := by
  have hvalid : n.isValidChar := Or.inl h
  rw [Char.ofNat, dif_pos hvalid]
  exact toNat_ofNatAux hvalid

/-! What the readers of one character return is what the bytes spell. -/

theorem encodeChar_of_one? {a : UInt8} {c : Char} (h : one? a = some c) :
    encodeChar c = [a] := by
  unfold one? at h
  split at h
  · next ha =>
      have hc := Option.some.inj h
      subst hc
      unfold encodeChar
      simp only [toNat_ofNat_of_lt (show a.toNat < 0xD800 by omega), ha, ↓reduceIte,
        toUInt8_of_toNat_eq rfl]
  · contradiction

theorem encodeChar_of_two? {a b : UInt8} {c : Char} (h : two? a b = some c) :
    encodeChar c = [a, b] ∧ IsContinuation b := by
  unfold two? at h
  obtain ⟨y, hy, h⟩ := Option.bind_eq_some_iff.mp h
  obtain ⟨hb, hby⟩ := continuation?_eq_some hy
  split at h
  · obtain ⟨hc, hle⟩ := scalar?_eq_some h
    unfold IsContinuation at hb
    refine ⟨?_, hb⟩
    unfold encodeChar
    simp only
    rw [if_neg (by omega), if_pos (by omega), toUInt8_of_toNat_eq (b := a) (by omega),
      toUInt8_of_toNat_eq (b := b) (by omega)]
  · contradiction

theorem encodeChar_of_three? {a b c : UInt8} {ch : Char} (h : three? a b c = some ch) :
    encodeChar ch = [a, b, c] ∧ IsContinuation b ∧ IsContinuation c := by
  unfold three? at h
  obtain ⟨y, hy, h⟩ := Option.bind_eq_some_iff.mp h
  obtain ⟨z, hz, h⟩ := Option.bind_eq_some_iff.mp h
  obtain ⟨hb, hby⟩ := continuation?_eq_some hy
  obtain ⟨hc, hcz⟩ := continuation?_eq_some hz
  split at h
  · obtain ⟨hn, hle⟩ := scalar?_eq_some h
    unfold IsContinuation at hb hc
    refine ⟨?_, hb, hc⟩
    unfold encodeChar
    simp only
    rw [if_neg (by omega), if_neg (by omega), if_pos (by omega),
      toUInt8_of_toNat_eq (b := a) (by omega), toUInt8_of_toNat_eq (b := b) (by omega),
      toUInt8_of_toNat_eq (b := c) (by omega)]
  · contradiction

theorem encodeChar_of_four? {a b c d : UInt8} {ch : Char} (h : four? a b c d = some ch) :
    encodeChar ch = [a, b, c, d] ∧
      IsContinuation b ∧ IsContinuation c ∧ IsContinuation d := by
  unfold four? at h
  obtain ⟨x, hx, h⟩ := Option.bind_eq_some_iff.mp h
  obtain ⟨y, hy, h⟩ := Option.bind_eq_some_iff.mp h
  obtain ⟨z, hz, h⟩ := Option.bind_eq_some_iff.mp h
  obtain ⟨hb, hbx⟩ := continuation?_eq_some hx
  obtain ⟨hc, hcy⟩ := continuation?_eq_some hy
  obtain ⟨hd, hdz⟩ := continuation?_eq_some hz
  split at h
  · obtain ⟨hn, hle⟩ := scalar?_eq_some h
    unfold IsContinuation at hb hc hd
    refine ⟨?_, hb, hc, hd⟩
    unfold encodeChar
    simp only
    rw [if_neg (by omega), if_neg (by omega), if_neg (by omega),
      toUInt8_of_toNat_eq (b := a) (by omega), toUInt8_of_toNat_eq (b := b) (by omega),
      toUInt8_of_toNat_eq (b := c) (by omega), toUInt8_of_toNat_eq (b := d) (by omega)]
  · contradiction

/-! The length of a character's spelling is told by its first byte. -/

theorem one?_eq_none {a : UInt8} (h : 0x80 ≤ a.toNat) : one? a = none := by
  unfold one?
  exact if_neg (by omega)

theorem two?_eq_none {a b : UInt8} (h : 0xE0 ≤ a.toNat) : two? a b = none := by
  unfold two?
  cases continuation? b with
  | none => rfl
  | some y => exact if_neg (by omega)

theorem three?_eq_none {a b c : UInt8} (h : 0xF0 ≤ a.toNat) : three? a b c = none := by
  unfold three?
  cases continuation? b with
  | none => rfl
  | some y =>
      cases continuation? c with
      | none => rfl
      | some z => exact if_neg (by omega)

/-! What is written as one character is read as that character. -/

theorem one?_toNat {c : Char} (h : c.toNat < 0x80) : one? c.toNat.toUInt8 = some c := by
  unfold one?
  rw [toNat_toUInt8 (by omega), if_pos h, Char.ofNat_toNat]

theorem two?_toNat {c : Char} (hle : 0x80 ≤ c.toNat) (hlt : c.toNat < 0x800) :
    two? (0xC0 + c.toNat / 0x40).toUInt8 (0x80 + c.toNat % 0x40).toUInt8 = some c := by
  unfold two?
  rw [continuation?_of_lt (Nat.mod_lt _ (by omega)), toNat_toUInt8 (by omega)]
  simp only [Option.bind_eq_bind, Option.bind_some]
  rw [if_pos (by omega),
    show (0xC0 + c.toNat / 0x40 - 0xC0) * 0x40 + c.toNat % 0x40 = c.toNat by omega]
  exact scalar?_toNat hle

theorem three?_toNat {c : Char} (hle : 0x800 ≤ c.toNat) (hlt : c.toNat < 0x10000) :
    three? (0xE0 + c.toNat / 0x1000).toUInt8 (0x80 + c.toNat / 0x40 % 0x40).toUInt8
      (0x80 + c.toNat % 0x40).toUInt8 = some c := by
  unfold three?
  rw [continuation?_of_lt (Nat.mod_lt _ (by omega)),
    continuation?_of_lt (Nat.mod_lt _ (by omega)), toNat_toUInt8 (by omega)]
  simp only [Option.bind_eq_bind, Option.bind_some]
  rw [if_pos (by omega),
    show (0xE0 + c.toNat / 0x1000 - 0xE0) * 0x1000 + c.toNat / 0x40 % 0x40 * 0x40 +
      c.toNat % 0x40 = c.toNat by omega]
  exact scalar?_toNat hle

theorem four?_toNat {c : Char} (hle : 0x10000 ≤ c.toNat) :
    four? (0xF0 + c.toNat / 0x40000).toUInt8 (0x80 + c.toNat / 0x1000 % 0x40).toUInt8
      (0x80 + c.toNat / 0x40 % 0x40).toUInt8 (0x80 + c.toNat % 0x40).toUInt8 = some c := by
  have hlt := toNat_lt c
  unfold four?
  rw [continuation?_of_lt (Nat.mod_lt _ (by omega)),
    continuation?_of_lt (Nat.mod_lt _ (by omega)),
    continuation?_of_lt (Nat.mod_lt _ (by omega)), toNat_toUInt8 (by omega)]
  simp only [Option.bind_eq_bind, Option.bind_some]
  rw [if_pos (by omega),
    show (0xF0 + c.toNat / 0x40000 - 0xF0) * 0x40000 + c.toNat / 0x1000 % 0x40 * 0x1000 +
      c.toNat / 0x40 % 0x40 * 0x40 + c.toNat % 0x40 = c.toNat by omega]
  exact scalar?_toNat hle

theorem decode_encodeChar_append (c : Char) (s : List UInt8) :
    decode (encodeChar c ++ s) = Reading.push c (decode s) := by
  have hlt := toNat_lt c
  unfold encodeChar
  simp only
  split
  · next h1 =>
      simp only [List.cons_append, List.nil_append]
      rw [decode.eq_def]
      simp only [one?_toNat h1]
  · next h1 =>
      split
      · next h2 =>
          have ha : (0xC0 + c.toNat / 0x40).toUInt8.toNat = 0xC0 + c.toNat / 0x40 :=
            toNat_toUInt8 (by omega)
          simp only [List.cons_append, List.nil_append]
          rw [decode.eq_def]
          simp only [one?_eq_none (show 0x80 ≤ _ by rw [ha]; omega),
            two?_toNat (by omega) h2]
      · next h2 =>
          split
          · next h3 =>
              have ha : (0xE0 + c.toNat / 0x1000).toUInt8.toNat = 0xE0 + c.toNat / 0x1000 :=
                toNat_toUInt8 (by omega)
              simp only [List.cons_append, List.nil_append]
              rw [decode.eq_def]
              simp only [one?_eq_none (show 0x80 ≤ _ by rw [ha]; omega),
                two?_eq_none (show 0xE0 ≤ _ by rw [ha]; omega),
                three?_toNat (by omega) h3]
          · next h3 =>
              have ha : (0xF0 + c.toNat / 0x40000).toUInt8.toNat =
                  0xF0 + c.toNat / 0x40000 := toNat_toUInt8 (by omega)
              simp only [List.cons_append, List.nil_append]
              rw [decode.eq_def]
              simp only [one?_eq_none (show 0x80 ≤ _ by rw [ha]; omega),
                two?_eq_none (show 0xE0 ≤ _ by rw [ha]; omega),
                three?_eq_none (show 0xF0 ≤ _ by rw [ha]; omega),
                four?_toNat (c := c) (by omega)]

theorem decode_encode_append (text : Text) (s : List UInt8) :
    decode (encode text ++ s) = (text ++ (decode s).1, (decode s).2) := by
  induction text with
  | nil => rfl
  | cons c text ih =>
      rw [encode_cons, List.append_assoc, decode_encodeChar_append, ih]
      rfl

/-- Reading undoes writing. -/
theorem decode_encode (text : Text) : decode (encode text) = (text, []) := by
  simpa [decode] using decode_encode_append text []

theorem encode_injective {a b : Text} (h : encode a = encode b) : a = b := by
  have hdecode := congrArg (fun s => (decode s).1) h
  simpa [decode_encode] using hdecode

/-- The bytes are the spelling of what was read, followed by what was left. -/
theorem encode_decode (s : List UInt8) : encode (decode s).1 ++ (decode s).2 = s := by
  fun_induction decode s with
  | case1 => rfl
  | case2 a s ch h ih =>
      simp only [Reading.push, encode_cons, encodeChar_of_one? h]
      simpa using ih
  | case3 a h => rfl
  | case4 a h b s ch h2 ih =>
      simp only [Reading.push, encode_cons, (encodeChar_of_two? h2).1]
      simpa using ih
  | case5 => rfl
  | case6 a h b h2 c s ch h3 ih =>
      simp only [Reading.push, encode_cons, (encodeChar_of_three? h3).1]
      simpa using ih
  | case7 => rfl
  | case8 a h b h2 c h3 d s ch h4 ih =>
      simp only [Reading.push, encode_cons, (encodeChar_of_four? h4).1]
      simpa using ih
  | case9 => rfl

/-- Bytes of which nothing is left are the spelling of the text that was read. -/
theorem eq_encode_of_decode {s : List UInt8} {text : Text} (h : decode s = (text, [])) :
    s = encode text := by
  have hs := encode_decode s
  rw [h] at hs
  simpa using hs.symm

theorem encodeChar_of_lt {c : Char} (h : c.toNat < 0x80) :
    encodeChar c = [c.toNat.toUInt8] := by
  unfold encodeChar
  exact if_pos h

/-- A character beyond ASCII has no ASCII byte in its spelling. -/
theorem le_of_mem_encodeChar {c : Char} (h : 0x80 ≤ c.toNat) {b : UInt8}
    (hb : b ∈ encodeChar c) : 0x80 ≤ b.toNat := by
  have hlt := toNat_lt c
  have hbyte : ∀ {n : Nat}, 0x80 ≤ n → n < 0x100 → 0x80 ≤ n.toUInt8.toNat := by
    intro n hle hn
    rw [toNat_toUInt8 hn]
    exact hle
  unfold encodeChar at hb
  simp only [show ¬ c.toNat < 0x80 by omega, ↓reduceIte] at hb
  split at hb
  · simp only [List.mem_cons, List.not_mem_nil, or_false] at hb
    rcases hb with rfl | rfl <;> exact hbyte (by omega) (by omega)
  · split at hb
    · simp only [List.mem_cons, List.not_mem_nil, or_false] at hb
      rcases hb with rfl | rfl | rfl <;> exact hbyte (by omega) (by omega)
    · simp only [List.mem_cons, List.not_mem_nil, or_false] at hb
      rcases hb with rfl | rfl | rfl | rfl <;> exact hbyte (by omega) (by omega)

/-- The bytes of a character: one that does not continue a character, and others that do. -/
theorem encodeChar_shape (c : Char) :
    ∃ a tail, encodeChar c = a :: tail ∧ ¬ IsContinuation a ∧ ∀ b ∈ tail, IsContinuation b := by
  have hlt := toNat_lt c
  have hlead : ∀ {n : Nat}, n < 0x100 → (n < 0x80 ∨ 0xC0 ≤ n) → ¬ IsContinuation n.toUInt8 := by
    intro n hn hrange
    unfold IsContinuation
    rw [toNat_toUInt8 hn]
    omega
  have htail : ∀ n, IsContinuation (0x80 + n % 0x40).toUInt8 := by
    intro n
    unfold IsContinuation
    rw [toNat_toUInt8 (by omega)]
    omega
  unfold encodeChar
  simp only
  split
  · exact ⟨_, _, rfl, hlead (by omega) (by omega), by simp⟩
  · split
    · exact ⟨_, _, rfl, hlead (by omega) (by omega), by
        simp only [List.forall_mem_cons, htail, true_and, List.not_mem_nil, false_implies,
          implies_true]⟩
    · split
      · exact ⟨_, _, rfl, hlead (by omega) (by omega), by
        simp only [List.forall_mem_cons, htail, true_and, List.not_mem_nil, false_implies,
          implies_true]⟩
      · exact ⟨_, _, rfl, hlead (by omega) (by omega), by
        simp only [List.forall_mem_cons, htail, true_and, List.not_mem_nil, false_implies,
          implies_true]⟩

/-! ### The standard library's UTF-8 -/

theorem encodeChar_eq_utf8EncodeChar (c : Char) : encodeChar c = String.utf8EncodeChar c := by
  have hlt := toNat_lt c
  have hbyte : ∀ {m n : Nat}, m = n → m.toUInt8 = UInt8.ofNat n := by
    rintro m n rfl
    rfl
  have hval : c.val.toNat = c.toNat := rfl
  unfold encodeChar String.utf8EncodeChar
  simp only [hval]
  by_cases h1 : c.toNat < 0x80
  · rw [if_pos h1, if_pos (show c.toNat ≤ 0x7F by omega)]
  rw [if_neg h1, if_neg (show ¬ c.toNat ≤ 0x7F by omega)]
  by_cases h2 : c.toNat < 0x800
  · rw [if_pos h2, if_pos (show c.toNat ≤ 0x7FF by omega)]
    simp only [List.cons.injEq, and_true]
    exact ⟨hbyte (by omega), hbyte (by omega)⟩
  rw [if_neg h2, if_neg (show ¬ c.toNat ≤ 0x7FF by omega)]
  by_cases h3 : c.toNat < 0x10000
  · rw [if_pos h3, if_pos (show c.toNat ≤ 0xFFFF by omega)]
    simp only [List.cons.injEq, and_true]
    exact ⟨hbyte (by omega), hbyte (by omega), hbyte (by omega)⟩
  · rw [if_neg h3, if_neg (show ¬ c.toNat ≤ 0xFFFF by omega)]
    simp only [List.cons.injEq, and_true]
    exact ⟨hbyte (by omega), hbyte (by omega), hbyte (by omega), hbyte (by omega)⟩

/-- Bytes that the standard library takes for UTF-8. -/
def WellFormed (s : List UInt8) : Prop :=
  s.toByteArray.IsValidUTF8

/-- Well-formed bytes are the spelling of a text. -/
theorem wellFormed_iff {s : List UInt8} : WellFormed s ↔ ∃ text, s = encode text := by
  have hencode : ∀ text : Text, text.utf8Encode = (encode text).toByteArray := by
    intro text
    have hchar : encodeChar = String.utf8EncodeChar := funext encodeChar_eq_utf8EncodeChar
    rw [encode, hchar]
    rfl
  constructor
  · rintro ⟨text, htext⟩
    rw [hencode, List.toByteArray_inj] at htext
    exact ⟨text, htext⟩
  · rintro ⟨text, rfl⟩
    exact ⟨text, (hencode text).symm⟩

theorem WellFormed.append {s r : List UInt8} (hs : WellFormed s) (hr : WellFormed r) :
    WellFormed (s ++ r) := by
  obtain ⟨a, rfl⟩ := wellFormed_iff.mp hs
  obtain ⟨b, rfl⟩ := wellFormed_iff.mp hr
  exact wellFormed_iff.mpr ⟨a ++ b, (encode_append a b).symm⟩

end QueryLabel.Utf8
