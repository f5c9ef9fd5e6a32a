import QueryLabel.Proofs.Json.Extent
import QueryLabel.Proofs.Text.Position

/-!
Where a refusal lies.  Outside of objects with the numeral key, a refused document is unfinished at
its end, or the bytes up to the place of the refusal explain it, or a string before that place is
no text (`refusal_of_parse`).  What carries this is that every step that fails blames the byte it
has just looked at (`local_step`).
-/

namespace QueryLabel.Json

open Text (ascii)

/-! ### Faults of one step -/

/-- A fault that the byte just looked at explains: it lies behind that byte and is no early end, or
the byte closes a string that is no text. -/
def Fault.AtByte (fault : Fault) : Prop :=
  ((∀ part, fault.cause ≠ .unfinished part) ∧ fault.place = .afterByte) ∨
    ∃ columns, fault = ⟨.invalidCodePoint, .back columns⟩

/-- If a step fails, then by a fault that its byte explains. -/
def Local {α : Type} (result : Except Fault α) : Prop :=
  ∀ fault, result = .error fault → fault.AtByte

section Local

variable {α β : Type} {limit : Nat} {frames : List Frame} {b : UInt8}

theorem Local.ok (a : α) : Local (.ok a) := by
  intro fault h
  cases h

theorem local_refuse {cause : Cause} (h : ∀ part, cause ≠ .unfinished part) :
    Local (refuse cause : Except Fault α) := by
  intro fault hfault
  cases hfault
  exact Or.inl ⟨h, rfl⟩

theorem Local.map {result : Except Fault α} (h : Local result) (f : α → β) :
    Local (f <$> result) := by
  intro fault hfault
  cases result with
  | ok a => cases hfault
  | error other =>
      cases hfault
      exact h fault rfl

theorem Local.ite {c : Prop} [Decidable c] {yes no : Except Fault α} (hyes : Local yes)
    (hno : Local no) : Local (if c then yes else no) := by
  split
  · exact hyes
  · exact hno

theorem local_complete (h : Frame.numeral ∉ frames) (value : Json) (tookByte : Bool) :
    Local (complete value tookByte frames) := by
  obtain ⟨progress, hprogress⟩ := complete_of_not_numeral h value tookByte
  rw [hprogress]
  exact .ok progress

theorem local_openContainer (h : Frame.numeral ∉ frames) (slot : Slot) (kind : Found) :
    Local (openContainer limit slot kind frames) := by
  unfold openContainer
  split
  · exact absurd List.mem_cons_self h
  · exact .ite (.ok _) (local_refuse (by simp))

theorem local_startValue (h : Frame.numeral ∉ frames) (b : UInt8) :
    Local (startValue limit frames b) := by
  unfold startValue
  refine .ite (.ok _) (.ite (local_openContainer h _ _) (.ite (local_openContainer h _ _)
    (.ite (.ok _) (.ite (.ok _) (.ite (.ok _) ?_)))))
  split
  · exact .ok _
  · exact local_refuse (by simp)

theorem local_startItem (h : Frame.numeral ∉ frames) (items : List Json) (b : UInt8) :
    Local (Progress.going <$> startValue limit (.list items :: frames) b) :=
  (local_startValue (by simpa using h) b).map _

theorem local_stepToken (h : Frame.numeral ∉ frames) (slot : Slot) (b : UInt8) :
    Local (stepToken limit slot frames b) := by
  cases slot with
  | value => exact (local_startValue h b).map _
  | firstItem => exact .ite (local_complete h _ _) (local_startItem h [] b)
  | nextItem items => exact .ite (local_refuse (by simp)) (local_startItem h items b)
  | afterItem items =>
      exact .ite (.ok _) (.ite (local_complete h _ _) (local_refuse (by simp)))
  | firstKey => exact .ite (.ok _) (.ite (local_complete h _ _) (local_refuse (by simp)))
  | nextKey members =>
      exact .ite (.ok _) (.ite (local_refuse (by simp)) (local_refuse (by simp)))
  | colon members key => exact .ite (.ok _) (local_refuse (by simp))
  | afterMember members =>
      exact .ite (.ok _) (.ite (local_complete h _ _) (local_refuse (by simp)))
  | numeralColon => exact .ite (.ok _) (local_refuse (by simp))
  | afterNumeral literal =>
      exact .ite (local_complete h _ _) (.ite (local_refuse (by simp)) (local_refuse (by simp)))

theorem local_stepBetween (h : Frame.numeral ∉ frames) (slot : Slot) (b : UInt8) :
    Local (stepBetween limit slot frames b) :=
  .ite (.ok _) (local_stepToken h slot b)

theorem local_stepWord (h : Frame.numeral ∉ frames) (left : List UInt8) (value : Json)
    (b : UInt8) : Local (stepWord left value frames b) := by
  match left with
  | [] => exact local_refuse (by simp)
  | [last] => exact .ite (local_complete h _ _) (local_refuse (by simp))
  | next :: last :: left => exact .ite (.ok _) (local_refuse (by simp))

/-- What is around a complete value is not behind the numeral key, either. -/
theorem not_numeral_of_complete (h : Frame.numeral ∉ frames) {value : Json} {tookByte : Bool}
    {state : State} (hstate : complete value tookByte frames = .ok (.going state)) :
    Frame.numeral ∉ state.frames := by
  match frames with
  | [] => cases hstate
  | .list items :: outer =>
      cases hstate
      exact fun hmem => h (List.mem_cons_of_mem _ hmem)
  | .record members key :: outer =>
      cases hstate
      exact fun hmem => h (List.mem_cons_of_mem _ hmem)
  | .numeral :: outer => exact absurd List.mem_cons_self h

theorem local_stepNumber (h : Frame.numeral ∉ frames) (scan : NumberScan) (b : UInt8) :
    Local (stepNumber limit scan frames b) := by
  unfold stepNumber
  split
  · exact .ok _
  · split
    · next slot outer hcomplete =>
        exact local_stepBetween (not_numeral_of_complete h hcomplete) slot b
    · exact local_complete h _ _
  · exact local_refuse (by simp)
  · exact local_refuse (by simp)

theorem local_close (scan : StringScan) : Local scan.close := by
  unfold StringScan.close
  split
  · exact .ok _
  · intro fault hfault
    cases hfault
    exact Or.inr ⟨_, rfl⟩

theorem local_unit (scan : StringScan) (lead : Option Nat) (n : Nat) :
    Local (scan.unit lead n) := by
  have hlone : Local (.error ⟨.loneSurrogate, .afterByte⟩ : Except Fault StringScan.Step) :=
    local_refuse (by simp)
  cases lead with
  | none => exact .ite hlone (.ite (.ok _) (.ok _))
  | some first => exact .ite (.ok _) hlone

theorem local_stringStep (scan : StringScan) (b : UInt8) : Local (scan.step b) := by
  have hrefuse : ∀ cause, (∀ part, cause ≠ .unfinished part) →
      Local (.error ⟨cause, .afterByte⟩ : Except Fault StringScan.Step) :=
    fun cause h => local_refuse h
  unfold StringScan.step
  split
  · exact .ite (local_close scan) (.ite (.ok _) (.ite (hrefuse _ (by simp)) (.ok _)))
  · refine .ite (.ok _) ?_
    split
    · exact .ok _
    · exact hrefuse _ (by simp)
  · refine .ite (.ok _) ?_
    split
    · exact local_unit scan _ _
    · exact hrefuse _ (by simp)
  · exact .ite (.ok _) (hrefuse _ (by simp))
  · exact .ite (.ok _) (hrefuse _ (by simp))

theorem local_stepString (h : Frame.numeral ∉ frames) (use : StringUse) (scan : StringScan)
    (b : UInt8) : Local (stepString use scan frames b) := by
  have hstep := local_stringStep scan b
  unfold stepString
  cases hscan : scan.step b with
  | error fault =>
      rw [hscan] at hstep
      intro other hother
      cases hother
      exact hstep fault rfl
  | ok outcome =>
      cases outcome with
      | more next => exact .ok _
      | closed text =>
          cases use with
          | value => exact local_complete h _ _
          | key members => exact .ok _

/-- A step that fails outside of objects with the numeral key blames its byte. -/
theorem local_step {state : State} (h : Frame.numeral ∉ state.frames) (b : UInt8) :
    Local (state.step limit b) := by
  obtain ⟨mode, frames⟩ := state
  cases mode with
  | between slot => exact local_stepBetween h slot b
  | word left value => exact local_stepWord h left value b
  | number scan => exact local_stepNumber h scan b
  | string use scan => exact local_stepString h use scan b

end Local

/-! ### Documents without the numeral key -/

/-- Wherever a document opens an object, as far as it can be read, the key behind the brace is not
the numeral key. -/
def NoNumeralKey (document : List UInt8) : Prop :=
  ∀ q k frames, q ++ k <+: document → Entered depthLimit (ascii '{') q frames →
    ¬ Keyed k numeralKey

theorem prefix_of_append {s r document : List UInt8} (h : s ++ r <+: document) : s <+: document :=
  (List.prefix_append s r).trans h

-- Going back, a container is left for the one around it, and its bracket for what is before it.
mutual

theorem not_numeral_of_opened {document q : List UInt8} {frames : List Frame}
    (hfree : NoNumeralKey document) (h : Opened depthLimit q frames) (hq : q <+: document) :
    Frame.numeral ∉ frames := by
  cases h with
  | root => exact List.not_mem_nil
  | firstItem hopen => simpa using not_numeral_of_entered hfree hopen hq
  | nextItem hopen hs =>
      simpa using not_numeral_of_entered hfree hopen (prefix_of_append (prefix_of_append hq))
  | firstMember hopen hk hkey =>
      simpa using not_numeral_of_entered hfree hopen (prefix_of_append (prefix_of_append hq))
  | nextMember hopen hs hk =>
      simpa using not_numeral_of_entered hfree hopen
        (prefix_of_append (prefix_of_append (prefix_of_append hq)))
  | numeral hopen hk => exact absurd hk (hfree _ _ _ (prefix_of_append hq) hopen)
termination_by 2 * frames.length

theorem not_numeral_of_entered {document q : List UInt8} {frames : List Frame} {bracket : UInt8}
    (hfree : NoNumeralKey document) (h : Entered depthLimit bracket q frames)
    (hq : q <+: document) : Frame.numeral ∉ frames := by
  cases h with
  | mk hopen hw hhost hlimit =>
      exact not_numeral_of_opened hfree hopen (prefix_of_append (prefix_of_append hq))
termination_by 2 * frames.length + 1

end

section NoNumeralKey

variable {document q p : List UInt8} {frames : List Frame}

theorem not_numeral_of_slotted (hfree : NoNumeralKey document) {slot : Slot}
    (h : Slotted depthLimit q slot frames) (hq : q <+: document) : Frame.numeral ∉ frames := by
  cases h with
  | value hopen => exact not_numeral_of_opened hfree hopen hq
  | firstItem hopen | firstKey hopen => exact not_numeral_of_entered hfree hopen hq
  | afterItem hopen | firstColon hopen | afterMember hopen | numeralColon hopen
  | afterNumeral hopen => exact not_numeral_of_entered hfree hopen (prefix_of_append hq)
  | nextItem hopen | nextKey hopen | nextColon hopen =>
      exact not_numeral_of_entered hfree hopen (prefix_of_append (prefix_of_append hq))

/-- The reader of such a document is never behind the numeral key. -/
theorem not_numeral_of_reached (hfree : NoNumeralKey document) {state : State}
    (h : Reached depthLimit p state) (hp : p <+: document) : Frame.numeral ∉ state.frames := by
  cases h with
  | between hq hw => exact not_numeral_of_slotted hfree hq (prefix_of_append hp)
  | word hq hw hs | number hq hw hs | string hq hw hs =>
      exact not_numeral_of_opened hfree hq (prefix_of_append (prefix_of_append hp))
  | key hq hslot hw hs =>
      exact not_numeral_of_slotted hfree hq (prefix_of_append (prefix_of_append hp))

/-- A document that cannot spell the numeral key does not have it. -/
theorem noNumeralKey_of_undollared (hs : Undollared document) : NoNumeralKey document := by
  rintro q k frames ⟨rest, rfl⟩ - hkeyed
  have hk := hs.of_append_left.of_append_right
  cases hkeyed with
  | mk ha htext hb =>
      have hbehind := hk.of_append_left.of_append_right.of_cons
      exact ne_numeralKey_of_undollared htext hbehind rfl

theorem not_numeral_of_run? (hfree : NoNumeralKey document) {state : State}
    (h : State.initial.run? depthLimit p = some state) (hp : p <+: document) :
    Frame.numeral ∉ state.frames :=
  not_numeral_of_reached hfree (State.reached_of_run? h) hp

end NoNumeralKey

/-! ### Refusals of documents -/

/-- How a refused document and the refusal belong together: it is unfinished, at its end; or the
bytes up to the place of the refusal are refused so whatever follows them; or a string that ends
before some place is no text, and the refusal lies some columns before that place. -/
inductive Refusal (document : List UInt8) (e : SyntaxError) : Prop
  | early {part : Part} (hcause : e.cause = .unfinished part)
      (hplace : e.position = Position.after document)
  | fixed {p r : List UInt8} (hdocument : document = p ++ r)
      (hcause : ∀ part, e.cause ≠ .unfinished part) (hplace : e.position = Position.after p)
      (hsame : ∀ other, parse (p ++ other) = .error e)
  | noText {p r : List UInt8} {columns : Nat} (hdocument : document = p ++ r)
      (hcause : e.cause = .invalidCodePoint)
      (hplace : e.position = ⟨(Position.after p).line, (Position.after p).column - columns⟩)

section Refusal

variable {document s rest : List UInt8} {last : State} {b : UInt8} {e : SyntaxError}

/-- A document that leads on to its end. -/
theorem refusal_of_through (hframes : Frame.numeral ∉ last.frames)
    (hrun : State.initial.run? depthLimit s = some last) (h : parse s = .error e) :
    Refusal s e := by
  have hread : State.initial.read depthLimit .start s = _ := State.read_through hrun
  rcases last.finish_cases with ⟨part, hpart⟩ | ⟨scan, -, -, hnumber⟩ |
    ⟨scan, outer, fault, -, houter, -⟩
  · rw [hpart] at hread
    rw [parse_of_error hread] at h
    cases h
    exact .early rfl rfl
  · rw [hnumber] at hread
    rw [parse_of_ok hread] at h
    cases h
  · rw [houter] at hframes
    exact absurd List.mem_cons_self hframes

/-- A byte that is refused. -/
theorem refusal_of_refused (hframes : Frame.numeral ∉ last.frames)
    (hrun : State.initial.run? depthLimit s = some last) {fault : Fault}
    (hstep : last.step depthLimit b = .error fault) (h : parse (s ++ b :: rest) = .error e) :
    Refusal (s ++ b :: rest) e := by
  have hsame : ∀ other, parse (s ++ b :: other) =
      .error ⟨fault.cause, fault.place.resolve (Position.after s) (some b)⟩ :=
    fun other => parse_of_error (State.read_refused hrun hstep other)
  have he : e = ⟨fault.cause, fault.place.resolve (Position.after s) (some b)⟩ := by
    rw [hsame] at h
    exact (Except.error.inj h).symm
  have hnext : (Position.after s).advance b = Position.after (s ++ [b]) :=
    (Position.after_append_singleton s b).symm
  have hdocument : s ++ b :: rest = s ++ [b] ++ rest := by simp
  rcases local_step hframes b fault hstep with ⟨hcause, hplace⟩ | ⟨columns, rfl⟩
  · have hposition : e.position = Position.after (s ++ [b]) := by
      rw [he, hplace, ← hnext]
      rfl
    refine .fixed hdocument (by rwa [he]) hposition ?_
    intro other
    rw [List.append_assoc, List.singleton_append, hsame, he]
  · have hplace : e.position =
        ⟨(Position.after (s ++ [b])).line, (Position.after (s ++ [b])).column - columns⟩ := by
      rw [he, ← hnext]
      rfl
    exact .noText hdocument (by rw [he]) hplace

/-- A byte behind a complete value. -/
theorem refusal_of_finished (hrun : State.initial.run? depthLimit s = some last) {value : Json}
    {tookByte : Bool} (hstep : last.step depthLimit b = .ok (.finished value tookByte))
    (hrest : tookByte = false → rest.head? = some b)
    (h : parse (State.taken tookByte s b ++ rest) = .error e) :
    Refusal (State.taken tookByte s b ++ rest) e := by
  generalize htaken : State.taken tookByte s b = taken at h ⊢
  have hparse : ∀ other, (tookByte = false → other.head? = some b) →
      parse (taken ++ other) =
        (checkTrailing (Position.after taken) other).map fun _ => value := by
    intro other hother
    rw [← htaken]
    exact parse_of_ok (State.read_finished hrun hstep hother)
  rw [hparse rest hrest] at h
  rcases spaces_or_not rest with hspaces | ⟨space, c, unread, rfl, hspace, hc⟩
  · rw [checkTrailing_eq_ok_iff.mpr hspaces] at h
    cases h
  · rw [checkTrailing_of_not_space hspace hc] at h
    cases h
    refine .fixed (p := taken ++ (space ++ [c])) (r := unread) (by simp) (by simp) ?_ ?_
    · simp [Position.after, Position.past]
    · intro other
      have hbytes : taken ++ (space ++ [c]) ++ other = taken ++ (space ++ c :: other) := by simp
      have hhead : tookByte = false → (space ++ c :: other).head? = some b := by
        intro htook
        have hfirst := hrest htook
        cases space with
        | nil => exact hfirst
        | cons d space => exact hfirst
      rw [hbytes, hparse _ hhead, checkTrailing_of_not_space hspace hc]
      rfl

/-- Without the numeral key, a refused document and its refusal belong together. -/
theorem refusal_of_parse (hfree : NoNumeralKey document) (h : parse document = .error e) :
    Refusal document e := by
  cases State.course depthLimit State.initial document with
  | through hrun =>
      exact refusal_of_through (not_numeral_of_run? hfree hrun (List.prefix_refl _)) hrun h
  | finished hrun hstep hrest => exact refusal_of_finished hrun hstep hrest h
  | refused hrun hstep =>
      exact refusal_of_refused (not_numeral_of_run? hfree hrun (List.prefix_append _ _)) hrun
        hstep h

end Refusal

end QueryLabel.Json
