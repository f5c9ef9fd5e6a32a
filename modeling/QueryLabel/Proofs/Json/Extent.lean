import QueryLabel.Proofs.Json.Run

/-!
Where a document ends.  A document whose value is an object is complete at its closing brace and
not before: every beginning that stops short of the brace is unfinished (`parse_short`), and
nothing but white space may follow it (`parse_closed`, `checkTrailing_of_not_space`).
-/

namespace QueryLabel.Json

open Text (ascii)

variable {limit : Nat}

/-! ### On the way to an object -/

/-- Frames in which a number that ends leads nowhere: there are none, or it stands behind the
numeral key. -/
inductive Barren : List Frame → Prop
  | root : Barren []
  | numeral {outer : List Frame} : Barren (.numeral :: outer)

/-- A byte in or behind a number in barren frames. -/
theorem step_barren {frames : List Frame} (hbarren : Barren frames) {scan : NumberScan}
    {b : UInt8} {progress : Progress}
    (h : State.step limit ⟨.number scan, frames⟩ b = .ok progress) :
    (∃ next, progress = .going ⟨.number next, frames⟩) ∨
      ∃ literal tookByte, progress = .finished (.number literal) tookByte := by
  simp only [State.step, stepNumber] at h
  split at h
  · next next hstep =>
      cases h
      exact Or.inl ⟨next, rfl⟩
  · cases hbarren with
    | root =>
        cases h
        exact Or.inr ⟨_, _, rfl⟩
    | numeral => cases h
  · cases h
  · cases h

theorem run?_barren {frames : List Frame} (hbarren : Barren frames) {scan : NumberScan}
    {s : List UInt8} {last : State}
    (h : State.run? limit ⟨.number scan, frames⟩ s = some last) :
    ∃ scan, last = ⟨.number scan, frames⟩ := by
  induction s generalizing scan with
  | nil =>
      cases h
      exact ⟨scan, rfl⟩
  | cons b s ih =>
      obtain ⟨next, hstep, hrun⟩ := State.run?_cons_eq_some h
      rcases step_barren hbarren hstep with ⟨scan, hnext⟩ | ⟨literal, tookByte, hnext⟩
      · cases hnext
        exact ih hrun
      · cases hnext

/-- A state from which an object can be completed is unfinished. -/
theorem finish_of_run? {state last : State} {s : List UInt8} {b : UInt8} {members : Members}
    {tookByte : Bool} (hrun : state.run? limit s = some last)
    (hstep : last.step limit b = .ok (.finished (.object members) tookByte)) :
    ∃ part, state.finish = refuse (.unfinished part) := by
  have hdead : ∀ scan, state.mode = .number scan → ¬ Barren state.frames := by
    intro scan hmode hbarren
    obtain ⟨mode, frames⟩ := state
    cases hmode
    obtain ⟨scan, rfl⟩ := run?_barren hbarren hrun
    rcases step_barren hbarren hstep with ⟨next, hnext⟩ | ⟨literal, _, hnext⟩
    · cases hnext
    · cases hnext
  rcases state.finish_cases with hpart | ⟨scan, hmode, hframes, -⟩ |
    ⟨scan, outer, fault, hmode, hframes, -⟩
  · exact hpart
  · exact absurd (hframes ▸ .root) (hdead scan hmode)
  · exact absurd (hframes ▸ .numeral) (hdead scan hmode)

/-! ### The closing brace -/

theorem braces_of_spells {s : List UInt8} {members : Members} (h : Spells s (.object members)) :
    ∃ inner, s = ascii '{' :: inner ++ [ascii '}'] := by
  cases h with
  | emptyObject hw => exact ⟨_, rfl⟩
  | object h => exact ⟨_, rfl⟩

/-- Nothing but the members of an object stands for an object. -/
theorem object_of_value? {tree : Json} {members : Members}
    (h : value? tree = some (.object members)) : ∃ trees, tree = .object trees := by
  cases tree with
  | null | bool | number | string => cases h
  | array items => simp [value?] at h
  | object trees => exact ⟨trees, rfl⟩

/-- The bytes of a document up to the closing brace of its object. -/
structure Closes (before : List UInt8) (members : Members) : Prop where
  derivation : ∃ space inner trees, before = space ++ ascii '{' :: inner ∧ Spaces space ∧
    Spells (ascii '{' :: inner ++ [ascii '}']) (.object trees)
  run : ∃ last, State.initial.run? depthLimit before = some last ∧
    last.step depthLimit (ascii '}') = .ok (.finished (.object members) true)

/-- The brace that ends the spelling of an object is the byte that completes it. -/
theorem closes_of_spells {space inner : List UInt8} {trees members : Members}
    (hspace : Spaces space) (h : Spells (ascii '{' :: inner ++ [ascii '}']) (.object trees))
    (hvalue : value? (.object trees) = some (.object members))
    (hdepth : (Json.object trees).depth ≤ depthLimit) :
    Closes (space ++ ascii '{' :: inner) members := by
  refine ⟨⟨space, inner, trees, rfl, hspace, h⟩, ?_⟩
  have hread := read_initial hspace h hvalue hdepth (delimited_of_spaces spaces_nil) .start
  rw [List.append_nil, ← List.append_assoc] at hread
  generalize hdocument : space ++ ascii '{' :: inner ++ [ascii '}'] = document at hread
  cases State.course depthLimit State.initial document with
  | through hrun =>
      rw [State.read_through hrun] at hread
      split at hread
      · next value hfinish =>
          obtain ⟨literal, rfl⟩ := State.number_of_finish hfinish
          cases hread
      · cases hread
  | refused hrun hstep =>
      rw [State.read_refused hrun hstep] at hread
      cases hread
  | @finished s rest b last value tookByte hrun hstep hrest =>
      rw [State.read_finished hrun hstep hrest] at hread
      simp only [Except.ok.injEq, Prod.mk.injEq] at hread
      obtain ⟨rfl, -, rfl⟩ := hread
      cases tookByte with
      | false => cases hrest rfl
      | true =>
          rw [List.append_nil] at hdocument
          obtain ⟨rfl, hb⟩ := List.append_inj' hdocument rfl
          cases hb
          exact ⟨last, hrun, hstep⟩

/-- A document whose value is an object has a closing brace, and white space behind it. -/
theorem closes_of_parse {document : List UInt8} {members : Members}
    (h : parse document = .ok (.object members)) :
    ∃ before after, document = before ++ ascii '}' :: after ∧ Spaces after ∧
      Closes before members := by
  obtain ⟨tree, hdocument, hvalue⟩ := parse_eq_ok_iff.mp h
  obtain ⟨trees, rfl⟩ := object_of_value? hvalue
  obtain @⟨space, s, after, _, hspace, hs, hafter, hdepth⟩ := hdocument
  obtain ⟨inner, rfl⟩ := braces_of_spells hs
  exact ⟨space ++ ascii '{' :: inner, after, by simp, hafter,
    closes_of_spells hspace hs hvalue hdepth⟩

section Closes

variable {before : List UInt8} {members : Members}

/-- A beginning that stops short of the closing brace is unfinished, at its end. -/
theorem parse_short (h : Closes before members) {p : List UInt8} (hp : p <+: before) :
    ∃ part, parse p = .error ⟨.unfinished part, Position.after p⟩ := by
  obtain ⟨q, rfl⟩ := hp
  obtain ⟨last, hrun, hstep⟩ := h.run
  obtain ⟨middle, hp, hq⟩ := State.run?_append_eq_some hrun
  obtain ⟨part, hpart⟩ := finish_of_run? hq hstep
  refine ⟨part, parse_of_error ?_⟩
  rw [State.read_through hp, hpart]
  rfl

/-- Behind the closing brace, it is checked whether anything else follows. -/
theorem parse_closed (h : Closes before members) (rest : List UInt8) :
    parse (before ++ ascii '}' :: rest) =
      (checkTrailing (Position.after (before ++ [ascii '}'])) rest).map
        fun _ => .object members := by
  obtain ⟨last, hrun, hstep⟩ := h.run
  have hread : State.initial.read depthLimit .start ((before ++ [ascii '}']) ++ rest) =
      .ok (.object members, Position.after (before ++ [ascii '}']), rest) :=
    State.read_finished hrun hstep (fun h => by cases h)
  rw [List.append_assoc, List.singleton_append] at hread
  exact parse_of_ok hread

/-- A text is white space, or has a first byte that is none. -/
theorem spaces_or_not (s : List UInt8) :
    Spaces s ∨ ∃ space b rest, s = space ++ b :: rest ∧ Spaces space ∧ isSpace b = false := by
  induction s with
  | nil => exact Or.inl spaces_nil
  | cons b s ih =>
      cases hb : isSpace b with
      | false => exact Or.inr ⟨[], b, s, rfl, spaces_nil, hb⟩
      | true =>
          have hfirst := spaces_singleton hb
          rcases ih with hs | ⟨space, c, rest, rfl, hspace, hc⟩
          · exact Or.inl (spaces_append hfirst hs)
          · exact Or.inr ⟨b :: space, c, rest, rfl, spaces_append hfirst hspace, hc⟩

/-- A byte that is no white space may not follow a document. -/
theorem checkTrailing_of_not_space {space rest : List UInt8} {b : UInt8}
    (hspace : Spaces space) (hb : isSpace b = false) (here : Position) :
    checkTrailing here (space ++ b :: rest) =
      .error ⟨.trailingCharacters, here.past (space ++ [b])⟩ := by
  have hspaces := isSpace_of_spaces hspace
  clear hspace
  induction space generalizing here with
  | nil => simp [checkTrailing, hb]
  | cons c space ih =>
      obtain ⟨hc, hspaces⟩ := List.forall_mem_cons.mp hspaces
      rw [List.cons_append, checkTrailing, if_pos hc, ih _ hspaces]
      rfl

end Closes

end QueryLabel.Json
