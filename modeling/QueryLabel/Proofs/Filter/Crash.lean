import QueryLabel.Filter.Directive

/-!
When reading a filter crashes.  The parts of a directive are cut out at the offsets that its
characters have without the blanks in front, so a cut can go wrong only in a piece that is shifted:
one with white space in front and a character beyond ASCII (`exists_shifted_of_crashed`).  Walking
along a directive keeps `Stage.Placed`: the part that is being read begins between two characters.
-/

namespace QueryLabel.Filter

/-! ### Computations that do not crash -/

/-- A computation that does not crash, and whose result has a property if it has one. -/
def Safely {ε α : Type} (P : α → Prop) : Except (Stop ε) α → Prop
  | .ok a => P a
  | .error (.failed _) => True
  | .error .crashed => False

section Safely

variable {ε α β : Type} {P : α → Prop} {Q : β → Prop}

theorem Safely.bind {x : Except (Stop ε) α} {f : α → Except (Stop ε) β} (hx : Safely P x)
    (hf : ∀ a, P a → Safely Q (f a)) : Safely Q (x >>= f) := by
  match x, hx with
  | .ok a, ha => exact hf a ha
  | .error (.failed _), _ => trivial

theorem Safely.ne_crashed {x : Except (Stop ε) α} (h : Safely P x) : x ≠ .error .crashed := by
  rintro rfl
  exact h

end Safely

/-! ### Cutting between characters -/

/-- The number of bytes of a text. -/
def byteSize : Text → Nat
  | [] => 0
  | c :: text => c.utf8Size + byteSize text

@[simp] theorem byteSize_nil : byteSize [] = 0 := rfl

@[simp] theorem byteSize_cons (c : Char) (text : Text) :
    byteSize (c :: text) = c.utf8Size + byteSize text := rfl

@[simp] theorem byteSize_append (a b : Text) : byteSize (a ++ b) = byteSize a + byteSize b := by
  induction a with
  | nil => simp
  | cons c a ih => simp [ih, Nat.add_assoc]

/-- An offset at which a text can be cut: it lies between two characters, or at an end. -/
def CutsAt (text : Text) (offset : Nat) : Prop :=
  ∃ front rest, text = front ++ rest ∧ byteSize front = offset

theorem dropBytes?_append (front rest : Text) :
    dropBytes? (byteSize front) (front ++ rest) = some rest := by
  induction front with
  | nil =>
      rw [byteSize_nil]
      unfold dropBytes?
      rfl
  | cons c front ih =>
      have hpos := c.utf8Size_pos
      obtain ⟨n, hn⟩ : ∃ n, c.utf8Size + byteSize front = n + 1 :=
        ⟨c.utf8Size + byteSize front - 1, by omega⟩
      have hrest : n + 1 - c.utf8Size = byteSize front := by omega
      rw [byteSize_cons, hn, List.cons_append, dropBytes?, if_pos (by omega), hrest, ih]

theorem takeBytes?_append (front rest : Text) :
    takeBytes? (byteSize front) (front ++ rest) = some front := by
  induction front with
  | nil =>
      rw [byteSize_nil]
      unfold takeBytes?
      rfl
  | cons c front ih =>
      have hpos := c.utf8Size_pos
      obtain ⟨n, hn⟩ : ∃ n, c.utf8Size + byteSize front = n + 1 :=
        ⟨c.utf8Size + byteSize front - 1, by omega⟩
      have hrest : n + 1 - c.utf8Size = byteSize front := by omega
      rw [byteSize_cons, hn, List.cons_append, takeBytes?, if_pos (by omega), hrest, ih]
      rfl

/-- What is cut out between two places is the part between them. -/
theorem takeBytes?_dropBytes? (front part rest : Text) :
    (dropBytes? (byteSize front) (front ++ part ++ rest)).bind
      (takeBytes? (byteSize (front ++ part) - byteSize front)) = some part := by
  have hlength : byteSize (front ++ part) - byteSize front = byteSize part := by
    rw [byteSize_append]
    omega
  rw [List.append_assoc, dropBytes?_append, Option.bind_some, hlength, takeBytes?_append]

/-- Of two places where a text can be cut, the one with the smaller offset comes first. -/
theorem exists_between {front rest front' rest' : Text} (h : front ++ rest = front' ++ rest')
    (hle : byteSize front ≤ byteSize front') : ∃ part, front' = front ++ part := by
  rcases List.append_eq_append_iff.mp h with ⟨part, hfront, -⟩ | ⟨part, hfront, -⟩
  · exact ⟨part, hfront⟩
  · -- The second place comes first, so there is nothing between the two.
    rw [hfront, byteSize_append] at hle
    cases part with
    | nil => exact ⟨[], by simpa using hfront.symm⟩
    | cons c part =>
        have hpos := c.utf8Size_pos
        rw [byteSize_cons] at hle
        omega

theorem cut_safely {text : Text} {start stop : Nat} (hstart : CutsAt text start)
    (hstop : CutsAt text stop) (hle : start ≤ stop) :
    Safely (fun _ => True) (cut text start stop) := by
  obtain ⟨front, rest, htext, rfl⟩ := hstart
  obtain ⟨front', rest', htext', rfl⟩ := hstop
  obtain ⟨part, rfl⟩ := exists_between (htext.symm.trans htext') hle
  have hcut : cut text (byteSize front) (byteSize (front ++ part)) = .ok part := by
    rw [cut, htext', takeBytes?_dropBytes?]
  rw [hcut]
  trivial

theorem cutRest_safely {text : Text} {start : Nat} (hstart : CutsAt text start) :
    Safely (fun _ => True) (cutRest text start) := by
  obtain ⟨front, rest, rfl, rfl⟩ := hstart
  rw [cutRest, dropBytes?_append]
  trivial

/-! ### Walking along a directive -/

/-- The part that is being read begins where a text can be cut, and not behind an offset. -/
def Stage.Placed (piece : Text) (offset : Nat) : Stage → Prop
  | .name first | .span first | .field first | .level first =>
      CutsAt piece first ∧ first ≤ offset
  | .start | .fieldEnd | .target => True

theorem Stage.Placed.mono {piece : Text} {offset later : Nat} {stage : Stage}
    (h : stage.Placed piece offset) (hle : offset ≤ later) : stage.Placed piece later := by
  cases stage with
  | start | fieldEnd | target => trivial
  | name first | span first | field first | level first =>
      exact ⟨h.1, Nat.le_trans h.2 hle⟩

theorem parseValue_safely (text : Text) : Safely (fun _ => True) (parseValue text) := by
  unfold parseValue
  repeat' split
  all_goals trivial

theorem parseField_safely (text : Text) : Safely (fun _ => True) (parseField text) := by
  unfold parseField
  simp only
  split
  · trivial
  · exact (parseValue_safely _).bind fun _ _ => trivial

variable {piece : Text} {offset : Nat} {d : Directive} {stage : Stage}

/-- One character keeps the stage in its place, if the piece can be cut in front of it and behind
it. -/
theorem stepDirective_safely {c : Char} (hstage : stage.Placed piece offset)
    (hoffset : CutsAt piece offset) (hnext : CutsAt piece (offset + c.utf8Size)) :
    Safely (fun result => result.2.Placed piece (offset + c.utf8Size))
      (stepDirective piece offset c d stage) := by
  have hstay : stage.Placed piece (offset + c.utf8Size) := hstage.mono (Nat.le_add_right _ _)
  -- The marks of a directive are single bytes, so the next part begins behind the mark.
  have hmark : ∀ mark : Char, mark.utf8Size = 1 → c = mark →
      CutsAt piece (offset + 1) ∧ offset + 1 ≤ offset + c.utf8Size := by
    rintro mark hsize rfl
    rw [hsize] at hnext ⊢
    exact ⟨hnext, Nat.le_refl _⟩
  unfold stepDirective
  cases stage with
  | start =>
      simp only
      split
      · next hc => exact hmark '[' rfl hc
      · split
        · exact ⟨hoffset, Nat.le_add_right _ _⟩
        · trivial
  | name first =>
      simp only
      split
      · next hc => exact (cut_safely hstage.1 hoffset hstage.2).bind fun _ _ => hmark '=' rfl hc
      · split
        · next hc => exact (cut_safely hstage.1 hoffset hstage.2).bind fun _ _ => hmark '[' rfl hc
        · exact hstay
  | span first =>
      simp only
      split
      · exact (cut_safely hstage.1 hoffset hstage.2).bind fun _ _ => trivial
      · split
        · next hc => exact (cut_safely hstage.1 hoffset hstage.2).bind fun _ _ => hmark '{' rfl hc
        · exact hstay
  | field first =>
      simp only
      split
      · apply (cut_safely hstage.1 hoffset hstage.2).bind
        intro text _
        split
        · trivial
        · exact (parseField_safely text).bind fun _ _ => trivial
      · exact hstay
  | fieldEnd =>
      simp only
      split <;> trivial
  | target =>
      simp only
      split
      · next hc => exact hmark '=' rfl hc
      · trivial
  | level first => exact hstay

/-- Walking along characters keeps the stage in its place, if the piece can be cut in front of each
of them and behind the last one. -/
theorem walkDirective_safely {text : Text} (hstage : stage.Placed piece offset)
    (hcuts : ∀ front rest, text = front ++ rest → CutsAt piece (offset + byteSize front)) :
    Safely (fun result => ∃ stop, result.2.Placed piece stop)
      (walkDirective piece offset text d stage) := by
  induction text generalizing offset d stage with
  | nil => exact ⟨offset, hstage⟩
  | cons c text ih =>
      have hoffset : CutsAt piece offset := by simpa using hcuts [] (c :: text) rfl
      have hnext : CutsAt piece (offset + c.utf8Size) := by simpa using hcuts [c] text rfl
      refine (stepDirective_safely hstage hoffset hnext).bind fun result hresult => ?_
      refine ih hresult fun front rest htext => ?_
      have hcut := hcuts (c :: front) rest (by rw [htext]; rfl)
      rwa [byteSize_cons, ← Nat.add_assoc] at hcut

theorem finishDirective_safely (hstage : stage.Placed piece offset) :
    Safely (fun _ => True) (finishDirective piece d stage) := by
  unfold finishDirective
  cases stage with
  | start | span first | field first | fieldEnd | target => trivial
  | name first =>
      apply (cutRest_safely hstage.1).bind
      intro name _
      split <;> trivial
  | level first =>
      apply (cutRest_safely hstage.1).bind
      intro name _
      repeat' split
      all_goals trivial

/-! ### Pieces that are shifted -/

/-- A piece whose parts are cut out at other places than where its characters are: it has white
space in front, and a character beyond ASCII. -/
def Shifted (piece : Text) : Prop :=
  piece.head?.any Text.isBlank = true ∧ ∃ c ∈ piece, 0x80 ≤ c.toNat

theorem trimRight_isPrefix (text : Text) : Text.trimRight text <+: text := by
  have h := List.dropWhile_suffix Text.isBlank (l := text.reverse)
  simpa [Text.trimRight] using List.reverse_prefix.mpr h

theorem trim_sublist (text : Text) : (Text.trim text).Sublist text :=
  (trimRight_isPrefix _).sublist.trans (List.dropWhile_sublist _)

theorem trim_isPrefix (h : piece.head?.any Text.isBlank = false) : Text.trim piece <+: piece := by
  have hleft : Text.trimLeft piece = piece := by
    cases piece with
    | nil => rfl
    | cons c rest => exact List.dropWhile_cons_of_neg (by simpa using h)
  rw [Text.trim, hleft]
  exact trimRight_isPrefix piece

theorem byteSize_eq_length {text : Text} (h : ∀ c ∈ text, c.toNat < 0x80) :
    byteSize text = text.length := by
  induction text with
  | nil => rfl
  | cons c text ih =>
      obtain ⟨hc, htext⟩ := List.forall_mem_cons.mp h
      have hsize : c.utf8Size = 1 := Char.utf8Size_eq_one_iff.mpr (by
        rw [UInt32.le_iff_toNat_le]
        exact Nat.le_of_lt_succ hc)
      rw [byteSize_cons, hsize, ih htext, List.length_cons, Nat.add_comm]

/-- A text in ASCII can be cut anywhere. -/
theorem cutsAt_of_ascii {text : Text} (h : ∀ c ∈ text, c.toNat < 0x80) {offset : Nat}
    (hle : offset ≤ text.length) : CutsAt text offset := by
  refine ⟨text.take offset, text.drop offset, (List.take_append_drop _ _).symm, ?_⟩
  rw [byteSize_eq_length fun c hc => h c (List.mem_of_mem_take hc), List.length_take_of_le hle]

/-- In front of the characters of a piece without the blanks around it, and behind the last one,
the piece can be cut, unless it is shifted. -/
theorem cutsAt_of_not_shifted (h : ¬ Shifted piece) {front rest : Text}
    (htrim : Text.trim piece = front ++ rest) : CutsAt piece (byteSize front) := by
  by_cases hblank : piece.head?.any Text.isBlank = true
  · have hascii : ∀ c ∈ piece, c.toNat < 0x80 :=
      fun c hc => Nat.lt_of_not_le fun hlarge => h ⟨hblank, c, hc, hlarge⟩
    have hsublist : front.Sublist piece :=
      (htrim ▸ List.sublist_append_left front rest).trans (trim_sublist piece)
    rw [byteSize_eq_length fun c hc => hascii c (hsublist.mem hc)]
    exact cutsAt_of_ascii hascii hsublist.length_le
  · obtain ⟨behind, hpiece⟩ := trim_isPrefix (Bool.eq_false_iff.mpr hblank)
    exact ⟨front, rest ++ behind, by rw [← List.append_assoc, ← htrim, hpiece], rfl⟩

theorem parseDirective_safely (h : ¬ Shifted piece) :
    Safely (fun _ => True) (Directive.parse piece) := by
  unfold Directive.parse
  have hwalk := @walkDirective_safely piece 0 {} .start (Text.trim piece) trivial
    fun front rest htrim => by
      rw [Nat.zero_add]
      exact cutsAt_of_not_shifted h htrim
  exact hwalk.bind fun result ⟨_, hstage⟩ => finishDirective_safely hstage

theorem parsePieces_safely {pieces : List Text} (h : ∀ piece ∈ pieces, ¬ Shifted piece) :
    Safely (fun _ => True) (parsePieces pieces) := by
  induction pieces with
  | nil => trivial
  | cons piece rest ih =>
      obtain ⟨hpiece, hrest⟩ := List.forall_mem_cons.mp h
      exact (parseDirective_safely hpiece).bind fun _ _ => (ih hrest).bind fun _ _ => trivial

/-- A filter that crashes when it is read has a shifted piece. -/
theorem exists_shifted_of_crashed {text : Text} (h : parse text = .error .crashed) :
    ∃ piece ∈ splitCommas text, Shifted piece := by
  apply Classical.byContradiction
  intro hnone
  have hpieces : ∀ piece ∈ (splitCommas text).filter (· ≠ []), ¬ Shifted piece :=
    fun piece hpiece hshifted => hnone ⟨piece, (List.mem_filter.mp hpiece).1, hshifted⟩
  exact (parsePieces_safely hpieces).ne_crashed h

end QueryLabel.Filter
