import QueryLabel.Proofs.Json.Document

/-!
Runs of the reader.  `State.run?` is the state that some bytes lead to, one after the other.  A
document is read by a run through all of its bytes, or by a run up to the byte that completes the
value, or up to the one that is refused (`State.course`); what is read depends on nothing behind
that byte.
-/

namespace QueryLabel.Json

namespace State

/-- The state that some bytes lead to, if every one of them leads on. -/
def run? (limit : Nat) (state : State) : List UInt8 → Option State
  | [] => some state
  | b :: rest =>
      match state.step limit b with
      | .ok (.going next) => next.run? limit rest
      | _ => none

section Run

variable {limit : Nat} {state next : State} {s r : List UInt8} {b : UInt8} {here : Position}

theorem run?_cons (h : state.step limit b = .ok (.going next)) (s : List UInt8) :
    state.run? limit (b :: s) = next.run? limit s := by
  simp [run?, h]

theorem run?_cons_eq_some (h : state.run? limit (b :: s) = some next) :
    ∃ middle, state.step limit b = .ok (.going middle) ∧ middle.run? limit s = some next := by
  unfold run? at h
  split at h
  · next middle hstep => exact ⟨middle, hstep, h⟩
  · contradiction

theorem run?_append_eq_some (h : state.run? limit (s ++ r) = some next) :
    ∃ middle, state.run? limit s = some middle ∧ middle.run? limit r = some next := by
  induction s generalizing state with
  | nil => exact ⟨state, rfl, h⟩
  | cons b s ih =>
      obtain ⟨first, hstep, hrun⟩ := run?_cons_eq_some h
      obtain ⟨middle, hs, hr⟩ := ih hrun
      exact ⟨middle, by rw [run?_cons hstep, hs], hr⟩

theorem read_run (h : state.run? limit s = some next) (here : Position) (rest : List UInt8) :
    state.read limit here (s ++ rest) = next.read limit (here.past s) rest := by
  induction s generalizing state here with
  | nil =>
      cases h
      rfl
  | cons b s ih =>
      obtain ⟨first, hstep, hrun⟩ := run?_cons_eq_some h
      rw [List.cons_append, read_cons hstep, ih hrun, Position.past_cons]

/-- What every state on the way has in common: a property that a byte keeps up. -/
theorem run?_induction {P : List UInt8 → State → Prop}
    (hstep : ∀ p b state next, P p state → state.step limit b = .ok (.going next) →
      P (p ++ [b]) next)
    {p : List UInt8} (hp : P p state) (h : state.run? limit s = some next) : P (p ++ s) next := by
  induction s generalizing state p with
  | nil =>
      cases h
      rwa [List.append_nil]
  | cons b s ih =>
      obtain ⟨first, hfirst, hrun⟩ := run?_cons_eq_some h
      have hs := ih (hstep p b state first hp hfirst) hrun
      rwa [List.append_assoc, List.singleton_append] at hs

/-- The state behind the first bytes of a document tells which part of a derivation they are. -/
theorem reached_of_run? (h : State.initial.run? limit s = some next) : Reached limit s next := by
  have hinitial : Reached limit [] State.initial := .slotted (.value .root)
  exact run?_induction (P := Reached limit) (fun _ _ _ _ hp hstep => sound_step hp hstep)
    hinitial h

/-- A document that leads on to its end. -/
theorem read_through (h : state.run? limit s = some next) :
    state.read limit here s =
      match next.finish with
      | .ok value => .ok (value, here.past s, [])
      | .error fault => .error ⟨fault.cause, fault.place.resolve (here.past s) none⟩ := by
  have hread := read_run h here []
  rw [List.append_nil] at hread
  rw [hread]
  rfl

/-- The bytes that a value has taken when it is complete. -/
def taken (tookByte : Bool) (s : List UInt8) (b : UInt8) : List UInt8 :=
  if tookByte then s ++ [b] else s

/-- A byte that completes the value.  One that is not taken is the first one that is left. -/
theorem read_finished {value : Json} {tookByte : Bool} (h : state.run? limit s = some next)
    (hstep : next.step limit b = .ok (.finished value tookByte)) {rest : List UInt8}
    (hrest : tookByte = false → rest.head? = some b) :
    state.read limit here (taken tookByte s b ++ rest) =
      .ok (value, here.past (taken tookByte s b), rest) := by
  cases tookByte with
  | true =>
      simp only [taken, ↓reduceIte, List.append_assoc, List.singleton_append]
      rw [read_run h, State.read, hstep, Position.past_append]
      rfl
  | false =>
      obtain ⟨r, rfl⟩ := List.head?_eq_some_iff.mp (hrest rfl)
      simp only [taken, Bool.false_eq_true, ↓reduceIte]
      rw [read_run h, State.read, hstep]

/-- A byte that is refused. -/
theorem read_refused {fault : Fault} (h : state.run? limit s = some next)
    (hstep : next.step limit b = .error fault) (r : List UInt8) :
    state.read limit here (s ++ b :: r) =
      .error ⟨fault.cause, fault.place.resolve (here.past s) (some b)⟩ := by
  rw [read_run h, State.read, hstep]

/-- How a document is read from a state on. -/
inductive Course (limit : Nat) (state : State) : List UInt8 → Prop
  | through {s : List UInt8} {last : State} (hrun : state.run? limit s = some last) :
      Course limit state s
  | finished {s r : List UInt8} {b : UInt8} {last : State} {value : Json} {tookByte : Bool}
      (hrun : state.run? limit s = some last)
      (hstep : last.step limit b = .ok (.finished value tookByte))
      (hrest : tookByte = false → r.head? = some b) :
      Course limit state (taken tookByte s b ++ r)
  | refused {s r : List UInt8} {b : UInt8} {last : State} {fault : Fault}
      (hrun : state.run? limit s = some last) (hstep : last.step limit b = .error fault) :
      Course limit state (s ++ b :: r)

theorem Course.cons (hstep : state.step limit b = .ok (.going next))
    (h : Course limit next s) : Course limit state (b :: s) := by
  cases h with
  | through hrun => exact .through (by rw [run?_cons hstep, hrun])
  | @finished s rest c last value tookByte hrun hlast hrest =>
      have hcourse : Course limit state (taken tookByte (b :: s) c ++ rest) :=
        .finished (by rw [run?_cons hstep, hrun]) hlast hrest
      cases tookByte <;> exact hcourse
  | refused hrun hlast =>
      rw [← List.cons_append]
      exact .refused (by rw [run?_cons hstep, hrun]) hlast

theorem course (limit : Nat) (state : State) (document : List UInt8) :
    Course limit state document := by
  induction document generalizing state with
  | nil => exact .through rfl
  | cons b rest ih =>
      cases hstep : state.step limit b with
      | error fault => exact .refused (s := []) rfl hstep
      | ok progress =>
          cases progress with
          | going next => exact (ih next).cons hstep
          | finished value tookByte =>
              cases tookByte with
              | true => exact .finished (s := []) (r := rest) rfl hstep (fun h => by cases h)
              | false => exact .finished (s := []) (r := b :: rest) rfl hstep (fun _ => rfl)

end Run

end State

/-- Behind the value of a document, it is checked whether anything else follows. -/
theorem parse_of_ok {document rest : List UInt8} {value : Json} {here : Position}
    (h : State.initial.read depthLimit .start document = .ok (value, here, rest)) :
    parse document = (checkTrailing here rest).map fun _ => value := by
  simp only [parse, h, bind, Except.bind]
  cases checkTrailing here rest <;> rfl

theorem parse_of_error {document : List UInt8} {e : SyntaxError}
    (h : State.initial.read depthLimit .start document = .error e) :
    parse document = .error e := by
  simp only [parse, h, bind, Except.bind]

/-! ### Where a value can be complete -/

theorem complete_of_not_numeral {frames : List Frame} (h : Frame.numeral ∉ frames)
    (value : Json) (tookByte : Bool) :
    ∃ progress, complete value tookByte frames = .ok progress := by
  match frames with
  | [] => exact ⟨_, rfl⟩
  | .list items :: outer => exact ⟨_, rfl⟩
  | .record members key :: outer => exact ⟨_, rfl⟩
  | .numeral :: outer => exact absurd List.mem_cons_self h

/-- A document that ends early is unfinished, except for a number that may end: outside of all
containers it is complete, and behind the numeral key it is of the wrong type. -/
theorem State.finish_cases (state : State) :
    (∃ part, state.finish = refuse (.unfinished part)) ∨
      (∃ scan, state.mode = .number scan ∧ state.frames = [] ∧
        state.finish = .ok (.number scan.literal)) ∨
      ∃ scan outer fault, state.mode = .number scan ∧ state.frames = .numeral :: outer ∧
        state.finish = .error fault := by
  obtain ⟨mode, frames⟩ := state
  cases mode with
  | between slot => exact Or.inl ⟨_, rfl⟩
  | word left value => exact Or.inl ⟨_, rfl⟩
  | string use scan => exact Or.inl ⟨_, rfl⟩
  | number scan =>
      simp only [State.finish]
      split
      · cases frames with
        | nil => exact Or.inr (Or.inl ⟨scan, rfl, rfl, rfl⟩)
        | cons frame outer =>
            cases frame with
            | list items => exact Or.inl ⟨_, rfl⟩
            | record members key => exact Or.inl ⟨_, rfl⟩
            | numeral => exact Or.inr (Or.inr ⟨scan, outer, _, rfl, rfl, rfl⟩)
      · exact Or.inl ⟨_, rfl⟩

/-- Only a number is complete at the end of a document. -/
theorem State.number_of_finish {state : State} {value : Json} (h : state.finish = .ok value) :
    ∃ literal, value = .number literal := by
  rcases state.finish_cases with ⟨part, hpart⟩ | ⟨scan, -, -, hnumber⟩ |
    ⟨scan, outer, fault, -, -, hfault⟩
  · rw [h] at hpart
    cases hpart
  · rw [h] at hnumber
    cases hnumber
    exact ⟨_, rfl⟩
  · rw [h] at hfault
    cases hfault

end QueryLabel.Json
