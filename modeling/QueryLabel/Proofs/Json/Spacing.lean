import QueryLabel.Proofs.Json.Token

/-!
White space between tokens.  What the grammar derives has tokens, and derives the same tree again
when these are spread anew (`respaces_document`).  This is shown along the derivation: tokens in
front of tokens, with a mark between or around them, are tokens (`Respaces`).
-/

namespace QueryLabel.Json

open Text (ascii)

/-! ### Tokens one after the other -/

section Lexed

variable {s r w t : List UInt8} {tokens tokens' : List (List UInt8)}

theorem Lexed.spaces (hw : Spaces w) (h : Lexed s tokens) : Lexed (w ++ s) tokens := by
  cases h with
  | nil hw' => exact .nil (spaces_append hw hw')
  | cons hw' ht hend hr =>
      have hcons := Lexed.cons (spaces_append hw hw') ht hend hr
      simpa using hcons

theorem Lexed.mark {b : UInt8} (hb : b ∈ marks) (h : Lexed s tokens) :
    Lexed (b :: s) ([b] :: tokens) := by
  refine .cons spaces_nil (.mark hb) ?_ h
  intro hbare
  have hsame := hbare b (List.mem_singleton.mpr rfl)
  rw [isBare_of_mem_marks hb] at hsame
  contradiction

theorem lexed_token (h : Token t) : Lexed t [t] := by
  have hcons := Lexed.cons spaces_nil h (fun _ b hb => by cases hb) (.nil spaces_nil)
  simpa using hcons

/-- Tokens can be put together where no word or number would go on. -/
theorem Lexed.append (h : Lexed s tokens) (hr : Lexed r tokens') (hstops : Stops r) :
    Lexed (s ++ r) (tokens ++ tokens') := by
  induction h with
  | nil hw => exact hr.spaces hw
  | @cons w t s tokens hw ht hend _ ih =>
      have hends : (∀ b ∈ t, isBare b = true) → Stops (s ++ r) := by
        intro hbare
        cases s with
        | nil => exact hstops
        | cons b s => exact hend hbare
      have hcons := Lexed.cons hw ht hends ih
      simpa using hcons

theorem stops_spaces (hw : Spaces w) : Stops w := by
  intro b hb
  exact isBare_of_isSpace (isSpace_of_spaces hw b (List.mem_of_mem_head? hb))

theorem stops_mark {b : UInt8} (hb : b ∈ marks) (s : List UInt8) : Stops (b :: s) := by
  intro c hc
  rw [← Option.some.inj hc]
  exact isBare_of_mem_marks hb

theorem Spread.of_nil (h : Spread [] s) : Spaces s := by
  cases h with
  | nil hw => exact hw

theorem Spread.of_cons (h : Spread (t :: tokens) s) :
    ∃ w r, s = w ++ t ++ r ∧ Spaces w ∧ Spread tokens r := by
  cases h with
  | cons hw hr => exact ⟨_, _, rfl, hw, hr⟩

theorem Spread.of_append (h : Spread (tokens ++ tokens') s) :
    ∃ a b, s = a ++ b ∧ Spread tokens a ∧ Spread tokens' b := by
  induction tokens generalizing s with
  | nil => exact ⟨[], s, rfl, .nil spaces_nil, h⟩
  | cons t tokens ih =>
      obtain ⟨w, r, rfl, hw, hr⟩ := h.of_cons
      obtain ⟨a, b, rfl, ha, hb⟩ := ih hr
      exact ⟨w ++ t ++ a, b, by simp, .cons hw ha, hb⟩

end Lexed

/-! ### Texts that may be spread anew -/

/-- The text has tokens, and however these are spread, the outcome has the property. -/
def Respaces (P : List UInt8 → Prop) (s : List UInt8) : Prop :=
  ∃ tokens, Lexed s tokens ∧ ∀ other, Spread tokens other → P other

/-- Bytes with the property, with white space around them. -/
inductive Padded (P : List UInt8 → Prop) : List UInt8 → Prop
  | mk {a s b : List UInt8} (ha : Spaces a) (hs : P s) (hb : Spaces b) : Padded P (a ++ s ++ b)

section Respaces

variable {P Q : List UInt8 → Prop} {a b s r w : List UInt8} {l m : UInt8}

theorem Respaces.imp (h : Respaces P s) (hPQ : ∀ other, P other → Q other) : Respaces Q s := by
  obtain ⟨tokens, hlexed, hspread⟩ := h
  exact ⟨tokens, hlexed, fun other hother => hPQ other (hspread other hother)⟩

theorem respaces_spaces (hw : Spaces w) : Respaces Spaces w :=
  ⟨[], .nil hw, fun _ hother => hother.of_nil⟩

theorem respaces_token (h : Token s) : Respaces (Padded (· = s)) s := by
  refine ⟨[s], lexed_token h, ?_⟩
  intro other hother
  obtain ⟨w, r, rfl, hw, hr⟩ := hother.of_cons
  exact .mk hw rfl hr.of_nil

theorem Respaces.pad (h : Respaces P s) (ha : Spaces a) (hb : Spaces b) :
    Respaces P (a ++ s ++ b) := by
  obtain ⟨tokens, hlexed, hspread⟩ := h
  refine ⟨tokens, ?_, hspread⟩
  have happend := (hlexed.spaces ha).append (.nil hb) (stops_spaces hb)
  rwa [List.append_nil] at happend

/-- A mark between two texts. -/
theorem Respaces.divide (hm : m ∈ marks) (hs : Respaces P s) (hr : Respaces Q r) :
    Respaces (fun other => ∃ s' w r', other = s' ++ w ++ m :: r' ∧ P s' ∧ Spaces w ∧ Q r')
      (s ++ m :: r) := by
  obtain ⟨tokens, hlexed, hspread⟩ := hs
  obtain ⟨tokens', hlexed', hspread'⟩ := hr
  refine ⟨tokens ++ [m] :: tokens', hlexed.append (hlexed'.mark hm) (stops_mark hm r), ?_⟩
  intro other hother
  obtain ⟨s', others, rfl, hs', hothers⟩ := hother.of_append
  obtain ⟨w, r', rfl, hw, hr'⟩ := hothers.of_cons
  exact ⟨s', w, r', by simp, hspread s' hs', hw, hspread' r' hr'⟩

/-- A mark before a text and one behind it. -/
theorem Respaces.enclose (hl : l ∈ marks) (hm : m ∈ marks) (h : Respaces P s) :
    Respaces (Padded fun other => ∃ s' w, other = l :: (s' ++ w) ++ [m] ∧ P s' ∧ Spaces w)
      (l :: s ++ [m]) := by
  obtain ⟨tokens, hlexed, hspread⟩ := h
  refine ⟨[l] :: (tokens ++ [[m]]), ?_, ?_⟩
  · exact (hlexed.append (lexed_token (.mark hm)) (stops_mark hm [])).mark hl
  · intro other hother
    obtain ⟨a, others, rfl, ha, hothers⟩ := hother.of_cons
    obtain ⟨s', others, rfl, hs', hothers⟩ := hothers.of_append
    obtain ⟨w, b, rfl, hw, hb⟩ := hothers.of_cons
    have hpadded := Padded.mk (P := fun other =>
      ∃ s' w, other = l :: (s' ++ w) ++ [m] ∧ P s' ∧ Spaces w) ha
      ⟨s', w, rfl, hspread s' hs', hw⟩ hb.of_nil
    simpa using hpadded

end Respaces

theorem Padded.imp {P Q : List UInt8 → Prop} {s : List UInt8} (h : Padded P s)
    (hPQ : ∀ other, P other → Q other) : Padded Q s := by
  cases h with
  | mk ha hs hb => exact .mk ha (hPQ _ hs) hb

/-! ### Along a derivation -/

theorem respaces_scalar {s : List UInt8} {tree : Json} (ht : Token s) (h : Spells s tree) :
    Respaces (Padded (Spells · tree)) s := by
  apply (respaces_token ht).imp
  intro other hother
  apply hother.imp
  rintro _ rfl
  exact h

theorem bracket_mem_marks : ascii '[' ∈ marks ∧ ascii ']' ∈ marks := by
  decide

theorem brace_mem_marks : ascii '{' ∈ marks ∧ ascii '}' ∈ marks := by
  decide

theorem comma_mem_marks : ascii ',' ∈ marks := by
  decide

theorem colon_mem_marks : ascii ':' ∈ marks := by
  decide

/-- A list or an object around what may be spread anew. -/
theorem respaces_container {P : List UInt8 → Prop} {s : List UInt8} {l m : UInt8} {tree : Json}
    (hmarks : l ∈ marks ∧ m ∈ marks) (h : Respaces P s)
    (hspells : ∀ {s w}, P s → Spaces w → Spells (l :: (s ++ w) ++ [m]) tree) :
    Respaces (Padded (Spells · tree)) (l :: s ++ [m]) := by
  apply (h.enclose hmarks.1 hmarks.2).imp
  intro other hother
  apply hother.imp
  rintro _ ⟨s', w, rfl, hs', hw⟩
  exact hspells hs' hw

mutual

theorem respaces_spells {s : List UInt8} {tree : Json} (h : Spells s tree) :
    Respaces (Padded (Spells · tree)) s := by
  cases h with
  | null => exact respaces_scalar (token_word (by decide) (by decide)) .null
  | true => exact respaces_scalar (token_word (by decide) (by decide)) .true
  | false => exact respaces_scalar (token_word (by decide) (by decide)) .false
  | number h => exact respaces_scalar (.bare h.ne_nil h.isBare) (.number h)
  | string h => exact respaces_scalar (.string (quoted_of_spellsText h)) (.string h)
  | emptyArray hw =>
      apply respaces_container bracket_mem_marks (respaces_spaces hw)
      exact fun hs hw => .emptyArray (spaces_append hs hw)
  | array h =>
      apply respaces_container bracket_mem_marks (respaces_items h)
      exact fun hs hw => .array (hs.append_spaces hw)
  | emptyObject hw =>
      apply respaces_container brace_mem_marks (respaces_spaces hw)
      exact fun hs hw => .emptyObject (spaces_append hs hw)
  | object h =>
      apply respaces_container brace_mem_marks (respaces_members h)
      exact fun hs hw => .object (hs.append_spaces hw)

theorem respaces_items {s : List UInt8} {items : List Json} (h : SpellsItems s items) :
    Respaces (SpellsItems · items) s := by
  cases h with
  | one ha h hb =>
      apply ((respaces_spells h).pad ha hb).imp
      rintro _ ⟨ha, h, hb⟩
      exact .one ha h hb
  | cons ha h hb hr =>
      apply (((respaces_spells h).pad ha hb).divide comma_mem_marks (respaces_items hr)).imp
      rintro _ ⟨_, w, r, rfl, ⟨ha, h, hb⟩, hw, hr⟩
      have hcons := SpellsItems.cons ha h (spaces_append hb hw) hr
      simpa using hcons

theorem respaces_member {s : List UInt8} {member : Text × Json} (h : SpellsMember s member) :
    Respaces (SpellsMember · member) s := by
  cases h with
  | @mk a k b c s d key value ha hkey hb hc h hd =>
      have hquoted := (respaces_token (.string (quoted_of_spellsText hkey))).pad ha hb
      have hmember := hquoted.divide colon_mem_marks ((respaces_spells h).pad hc hd)
      have hsame : a ++ quoted k ++ b ++ ascii ':' :: (c ++ s ++ d) =
          a ++ ascii '"' :: k ++ ascii '"' :: b ++ ascii ':' :: c ++ s ++ d := by
        simp [quoted]
      rw [← hsame]
      apply hmember.imp
      rintro _ ⟨_, w, _, rfl, ⟨ha, rfl, hb⟩, hw, ⟨hc, h, hd⟩⟩
      have hspells := SpellsMember.mk ha hkey (spaces_append hb hw) hc h hd
      simpa [quoted] using hspells

theorem respaces_members {s : List UInt8} {members : Members} (h : SpellsMembers s members) :
    Respaces (SpellsMembers · members) s := by
  cases h with
  | one h =>
      apply (respaces_member h).imp
      intro other hother
      exact .one hother
  | cons h hr =>
      apply ((respaces_member h).divide comma_mem_marks (respaces_members hr)).imp
      rintro _ ⟨s', w, r', rfl, h, hw, hr⟩
      exact .cons (h.append_spaces hw) hr

end

/-- A document has tokens, and its tree is derived from them however they are spread. -/
theorem respaces_document {document : List UInt8} {tree : Json} (h : Document document tree) :
    Respaces (Document · tree) document := by
  cases h with
  | mk ha h hb hdepth =>
      apply ((respaces_spells h).pad ha hb).imp
      rintro _ ⟨ha, h, hb⟩
      exact .mk ha h hb hdepth

/-- A document is read as the same value however its tokens are spread. -/
theorem parse_spread {document : List UInt8} {value : Json} (h : parse document = .ok value) :
    ∃ tokens, Lexed document tokens ∧
      ∀ other, Spread tokens other → parse other = .ok value := by
  obtain ⟨tree, hdocument, hvalue⟩ := parse_eq_ok_iff.mp h
  obtain ⟨tokens, hlexed, hspread⟩ := respaces_document hdocument
  refine ⟨tokens, hlexed, ?_⟩
  intro other hother
  exact parse_eq_ok_iff.mpr ⟨tree, hspread other hother, hvalue⟩

end QueryLabel.Json
