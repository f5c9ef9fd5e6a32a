import QueryLabel.Proofs.Json.NumberGrammar
import QueryLabel.Proofs.Json.StringGrammar

/-!
Every document of the grammar is read.  From a state that wants a value, the reader goes through
any spelling of one and does what follows a complete value (`read_spells`), as long as the
containers that the spelling opens stay within the limit.
-/

namespace QueryLabel

namespace Position

/-- The place behind some more bytes. -/
def past (here : Position) (s : List UInt8) : Position :=
  s.foldl advance here

@[simp] theorem past_nil (here : Position) : here.past [] = here := rfl

@[simp] theorem past_cons (here : Position) (b : UInt8) (s : List UInt8) :
    here.past (b :: s) = (here.advance b).past s := rfl

@[simp] theorem past_append (here : Position) (s r : List UInt8) :
    here.past (s ++ r) = (here.past s).past r := by
  simp [past]

end Position

namespace Json

open Text (ascii)

/-- What is read behind a complete value inside some containers. -/
def resume (limit : Nat) (value : Json) (here : Position) (rest : List UInt8)
    (frames : List Frame) : Except SyntaxError (Json × Position × List UInt8) :=
  match complete value true frames with
  | .ok (.going next) => next.read limit here rest
  | .ok (.finished value _) => .ok (value, here, rest)
  | .error fault => .error ⟨fault.cause, fault.place.resolve here none⟩

section Steps

variable {limit : Nat} {frames : List Frame} {here : Position} {rest : List UInt8}

theorem read_cons {state next : State} {b : UInt8} (h : state.step limit b = .ok (.going next)) :
    state.read limit here (b :: rest) = next.read limit (here.advance b) rest := by
  simp [State.read, h]

/-- A byte that completes a value. -/
theorem read_complete {state : State} {b : UInt8} {value : Json}
    (h : state.step limit b = complete value true frames) :
    state.read limit here (b :: rest) = resume limit value (here.advance b) rest frames := by
  unfold State.read resume
  rw [h]
  match frames with
  | [] => rfl
  | .list items :: outer => rfl
  | .record members key :: outer => rfl
  | .numeral :: outer =>
      cases value with
      | string text => cases hread : readNumeral text <;> simp [complete, hread, Place.resolve]
      | null | bool | number | array | object => simp [complete, Place.resolve]

theorem isSpace_of_spaces {w : List UInt8} (hw : Spaces w) : ∀ b ∈ w, isSpace b = true := by
  intro b hb
  rcases hw b hb with rfl | rfl | rfl | rfl <;> rfl

/-- White space between tokens changes nothing. -/
theorem read_spaces {w : List UInt8} (hw : Spaces w) (slot : Slot) :
    State.read limit ⟨.between slot, frames⟩ here (w ++ rest) =
      State.read limit ⟨.between slot, frames⟩ (here.past w) rest := by
  have hspace := isSpace_of_spaces hw
  clear hw
  induction w generalizing here with
  | nil => rfl
  | cons b w ih =>
      simp only [List.forall_mem_cons] at hspace
      have hstep : State.step limit ⟨.between slot, frames⟩ b =
          .ok (.going ⟨.between slot, frames⟩) := by
        simp [State.step, stepBetween, hspace.1]
      rw [List.cons_append, read_cons hstep, ih hspace.2]
      rfl

/-- A word is read byte by byte. -/
theorem read_word {left : List UInt8} (hleft : left ≠ []) (value : Json) :
    State.read limit ⟨.word left value, frames⟩ here (left ++ rest) =
      resume limit value (here.past left) rest frames := by
  induction left generalizing here with
  | nil => contradiction
  | cons b left ih =>
      cases left with
      | nil =>
          have hstep : State.step limit ⟨.word [b] value, frames⟩ b =
              complete value true frames := by
            simp [State.step, stepWord]
          exact read_complete hstep
      | cons next left =>
          have hstep : State.step limit ⟨.word (b :: next :: left) value, frames⟩ b =
              .ok (.going ⟨.word (next :: left) value, frames⟩) := by
            simp [State.step, stepWord]
          rw [List.cons_append, read_cons hstep, ih (by simp)]
          rfl

/-- A word is read from its first byte on. -/
theorem read_ownWord {first : UInt8} {left : List UInt8} {value : Json}
    (hstep : State.step limit ⟨.between .value, frames⟩ first =
      .ok (.going ⟨.word left value, frames⟩)) (hleft : left ≠ []) :
    State.read limit ⟨.between .value, frames⟩ here (first :: left ++ rest) =
      resume limit value (here.past (first :: left)) rest frames := by
  rw [List.cons_append, read_cons hstep, read_word hleft]
  rfl

theorem read_scan {scan last : NumberScan} {s : List UInt8} (h : scan.run? s = some last) :
    State.read limit ⟨.number scan, frames⟩ here (s ++ rest) =
      State.read limit ⟨.number last, frames⟩ (here.past s) rest := by
  induction s generalizing scan here with
  | nil =>
      cases h
      rfl
  | cons b s ih =>
      obtain ⟨next, hstep, hrun⟩ := NumberScan.run?_cons_eq_some h
      have hstate : State.step limit ⟨.number scan, frames⟩ b =
          .ok (.going ⟨.number next, frames⟩) := by
        simp [State.step, stepNumber, hstep]
      rw [List.cons_append, read_cons hstate, ih hrun]
      rfl

/-- Bytes that cannot go on with a number. -/
def Delimited (rest : List UInt8) : Prop :=
  ∀ b ∈ rest.head?, NumberScan.EndsNumber b

/-- A number ends in front of a byte that cannot go on with it, or at the end of the bytes. -/
theorem read_number {scan : NumberScan} (hend : scan.mayEnd = true) (hrest : Delimited rest) :
    State.read limit ⟨.number scan, frames⟩ here rest =
      resume limit (.number scan.literal) here rest frames := by
  cases rest with
  | nil =>
      unfold State.read State.finish resume
      simp only [hend, ↓reduceIte]
      match frames with
      | [] => rfl
      | .list items :: outer => rfl
      | .record members key :: outer => rfl
      | .numeral :: outer => rfl
  | cons b rest =>
      have hstep := NumberScan.step_of_endsNumber hend (hrest b rfl)
      unfold State.read resume
      simp only [State.step, stepNumber, hstep]
      match frames with
      | [] => rfl
      | .list items :: outer => rfl
      | .record members key :: outer => rfl
      | .numeral :: outer => rfl

theorem isSpace_of_start? {b : UInt8} {scan : NumberScan}
    (h : NumberScan.start? b = some scan) : isSpace b = false := by
  rcases NumberScan.start?_eq_some h with ⟨rfl, -⟩ | ⟨hdigit, -⟩
  · rfl
  · have hne : ∀ {c : UInt8}, isDigit c = false → b ≠ c := ne_of_isDigit hdigit
    simp [isSpace, hne (show isDigit (ascii ' ') = false from rfl),
      hne (show isDigit (ascii '\n') = false from rfl),
      hne (show isDigit (ascii '\t') = false from rfl),
      hne (show isDigit (ascii '\r') = false from rfl)]

/-- A byte that begins a number begins no other value. -/
theorem startValue_of_start? {b : UInt8} {scan : NumberScan}
    (h : NumberScan.start? b = some scan) :
    startValue limit frames b = .ok ⟨.number scan, frames⟩ := by
  rcases NumberScan.start?_eq_some h with ⟨rfl, rfl⟩ | ⟨hdigit, -⟩
  · rfl
  · have hne : ∀ {c : UInt8}, isDigit c = false → b ≠ c := ne_of_isDigit hdigit
    unfold startValue
    rw [if_neg (hne rfl), if_neg (hne rfl), if_neg (hne rfl), if_neg (hne rfl),
      if_neg (hne rfl), if_neg (hne rfl), h]

theorem read_spellsNumber {s : List UInt8} {literal : Text} (h : SpellsNumber s literal)
    (hrest : Delimited rest) (here : Position) :
    State.read limit ⟨.between .value, frames⟩ here (s ++ rest) =
      resume limit (.number literal) (here.past s) rest frames := by
  obtain ⟨last, hscan, hend, rfl⟩ := NumberScan.scan?_of_spells h
  cases s with
  | nil => cases hscan
  | cons b s =>
      obtain ⟨scan, hstart, hrun⟩ := Option.bind_eq_some_iff.mp hscan
      have hstep : State.step limit ⟨.between .value, frames⟩ b =
          .ok (.going ⟨.number scan, frames⟩) := by
        simp [State.step, stepBetween, stepToken, isSpace_of_start? hstart,
          startValue_of_start? hstart, Functor.map, Except.map]
      rw [List.cons_append, read_cons hstep, read_scan hrun, read_number hend hrest]
      rfl

theorem read_chars {scan last : StringScan} {s : List UInt8} (h : scan.run? s = some last)
    (use : StringUse) :
    State.read limit ⟨.string use scan, frames⟩ here (s ++ rest) =
      State.read limit ⟨.string use last, frames⟩ (here.past s) rest := by
  induction s generalizing scan here with
  | nil =>
      cases h
      rfl
  | cons b s ih =>
      obtain ⟨next, hstep, hrun⟩ := StringScan.run?_cons_eq_some h
      have hstate : State.step limit ⟨.string use scan, frames⟩ b =
          .ok (.going ⟨.string use next, frames⟩) := by
        simp [State.step, stepString, hstep, bind, Except.bind, pure, Except.pure]
      rw [List.cons_append, read_cons hstate, ih hrun]
      rfl

/-- A string that is a value. -/
theorem read_string {s : List UInt8} {text : Text} (h : SpellsText s text) :
    State.read limit ⟨.string .value {}, frames⟩ here (s ++ ascii '"' :: rest) =
      resume limit (.string text) ((here.past s).advance (ascii '"')) rest frames := by
  rw [read_chars (StringScan.run?_of_spells h []), List.append_nil]
  apply read_complete
  simp [State.step, stepString, StringScan.step_quote, bind, Except.bind]

/-- A string that is a key. -/
theorem read_key {s : List UInt8} {text : Text} (h : SpellsText s text) (members : Members) :
    State.read limit ⟨.string (.key members) {}, frames⟩ here (s ++ ascii '"' :: rest) =
      State.read limit (completeKey members text frames)
        ((here.past s).advance (ascii '"')) rest := by
  rw [read_chars (StringScan.run?_of_spells h []), List.append_nil]
  apply read_cons
  simp [State.step, stepString, StringScan.step_quote, bind, Except.bind, pure, Except.pure]

/-- The first byte of a value: it is no white space, and closes nothing. -/
theorem head_of_spells {s : List UInt8} {tree : Json} (h : Spells s tree) :
    ∃ b r, s = b :: r ∧ isSpace b = false ∧ b ≠ ascii ']' := by
  cases h with
  | null | true | false => exact ⟨_, _, rfl, rfl, by decide⟩
  | number h =>
      obtain ⟨scan, hscan, -, -⟩ := NumberScan.scan?_of_spells h
      cases s with
      | nil => cases hscan
      | cons b r =>
          obtain ⟨scan, hstart, -⟩ := Option.bind_eq_some_iff.mp hscan
          refine ⟨b, r, rfl, isSpace_of_start? hstart, ?_⟩
          rcases NumberScan.start?_eq_some hstart with ⟨rfl, -⟩ | ⟨hdigit, -⟩
          · decide
          · exact ne_of_isDigit hdigit rfl
  | string | emptyArray | array | emptyObject | object => exact ⟨_, _, rfl, rfl, by decide⟩

/-- Frames in which any value may stand. -/
def Hosts (frames : List Frame) : Prop :=
  ∀ outer, frames ≠ .numeral :: outer

theorem hosts_nil : Hosts [] := by
  intro outer h
  cases h

theorem hosts_list (items : List Json) (frames : List Frame) : Hosts (.list items :: frames) := by
  intro outer h
  cases h

theorem hosts_record (members : Members) (key : Text) (frames : List Frame) :
    Hosts (.record members key :: frames) := by
  intro outer h
  cases h

theorem openContainer_of_lt {slot : Slot} {kind : Found} (hhost : Hosts frames)
    (hlimit : frames.length < limit) :
    openContainer limit slot kind frames = .ok ⟨.between slot, frames⟩ := by
  unfold openContainer
  split
  · exact absurd rfl (hhost _)
  · exact if_pos hlimit

theorem read_open_array (hhost : Hosts frames) (hlimit : frames.length < limit) :
    State.read limit ⟨.between .value, frames⟩ here (ascii '[' :: rest) =
      State.read limit ⟨.between .firstItem, frames⟩ (here.advance (ascii '[')) rest := by
  apply read_cons
  have hstart : startValue limit frames (ascii '[') = .ok ⟨.between .firstItem, frames⟩ :=
    openContainer_of_lt hhost hlimit
  simp [State.step, stepBetween, stepToken, hstart, Functor.map, Except.map,
    show isSpace (ascii '[') = false from rfl]

theorem read_open_object (hhost : Hosts frames) (hlimit : frames.length < limit) :
    State.read limit ⟨.between .value, frames⟩ here (ascii '{' :: rest) =
      State.read limit ⟨.between .firstKey, frames⟩ (here.advance (ascii '{')) rest := by
  apply read_cons
  have hstart : startValue limit frames (ascii '{') = .ok ⟨.between .firstKey, frames⟩ :=
    openContainer_of_lt hhost hlimit
  simp [State.step, stepBetween, stepToken, hstart, Functor.map, Except.map,
    show isSpace (ascii '{') = false from rfl]

/-- A place for an item of a list that has these items so far, last one first. -/
inductive ItemSlot : Slot → List Json → Prop
  | first : ItemSlot .firstItem []
  | next {items : List Json} : ItemSlot (.nextItem items) items

/-- Where an item has to begin, a value is read into the list. -/
theorem read_item {slot : Slot} {items : List Json} (hslot : ItemSlot slot items)
    {s : List UInt8} {tree : Json} (h : Spells s tree) :
    State.read limit ⟨.between slot, frames⟩ here (s ++ rest) =
      State.read limit ⟨.between .value, .list items :: frames⟩ here (s ++ rest) := by
  obtain ⟨b, r, rfl, hspace, hclose⟩ := head_of_spells h
  have hstep : State.step limit ⟨.between slot, frames⟩ b =
      State.step limit ⟨.between .value, .list items :: frames⟩ b := by
    cases hslot <;> simp [State.step, stepBetween, stepToken, hspace, hclose]
  rw [List.cons_append, State.read.eq_def]
  conv => rhs; rw [State.read.eq_def]
  simp only [hstep]

/-- A place for a key of an object that has these members so far. -/
inductive KeySlot : Slot → Members → Prop
  | first : KeySlot .firstKey []
  | next {members : Members} (hne : members ≠ []) : KeySlot (.nextKey members) members

/-- Where a key has to begin, a key and the colon behind it are read. -/
theorem read_keyColon {slot : Slot} {members : Members} (hslot : KeySlot slot members)
    {a k b c : List UInt8} {key : Text} (ha : Spaces a) (hkey : SpellsText k key)
    (hb : Spaces b) (hc : Spaces c) (hfirst : members = [] → key ≠ numeralKey) :
    State.read limit ⟨.between slot, frames⟩ here
        (a ++ ascii '"' :: k ++ ascii '"' :: b ++ ascii ':' :: c ++ rest) =
      State.read limit ⟨.between .value, .record members key :: frames⟩
        (here.past (a ++ ascii '"' :: k ++ ascii '"' :: b ++ ascii ':' :: c)) rest := by
  have hquote : State.step limit ⟨.between slot, frames⟩ (ascii '"') =
      .ok (.going ⟨.string (.key members) {}, frames⟩) := by
    cases hslot <;> rfl
  have hcomplete : completeKey members key frames = ⟨.between (.colon members key), frames⟩ := by
    unfold completeKey
    rw [if_neg]
    rintro ⟨hempty, hnumeral⟩
    exact hfirst (List.isEmpty_iff.mp hempty) hnumeral
  have hcolon : State.step limit ⟨.between (.colon members key), frames⟩ (ascii ':') =
      .ok (.going ⟨.between .value, .record members key :: frames⟩) := rfl
  simp only [List.append_assoc, List.cons_append]
  rw [read_spaces ha, read_cons hquote, read_key hkey, hcomplete, read_spaces hb,
    read_cons hcolon, read_spaces hc]
  simp

theorem text_of_spells_string {s : List UInt8} {text : Text} (h : Spells s (.string text)) :
    ∃ t, s = ascii '"' :: t ++ [ascii '"'] ∧ SpellsText t text := by
  cases h with
  | string h => exact ⟨_, rfl, h⟩

/-- An object whose only key is the numeral key is read as a number. -/
theorem read_numeral {s : List UInt8} {members : Members} {value : Json}
    (h : SpellsMembers s members) (hfirst : members.firstKey? = some numeralKey)
    (hvalue : numeralValue? members = some value) :
    State.read limit ⟨.between .firstKey, frames⟩ here (s ++ ascii '}' :: rest) =
      resume limit value ((here.past s).advance (ascii '}')) rest frames := by
  obtain ⟨key, text, literal, rfl, hread, rfl⟩ := of_numeralValue? hvalue
  have hkey : key = numeralKey := Option.some.inj hfirst
  subst hkey
  have hmember : SpellsMember s (numeralKey, .string text) := by
    cases h with
    | one hmember => exact hmember
    | cons hmember hr => cases hr
  obtain @⟨a, k, b, c, s, d, _, _, ha, hkey, hb, hc, hs, hd⟩ := hmember
  obtain ⟨t, rfl, htext⟩ := text_of_spells_string hs
  have hquote : State.step limit ⟨.between .firstKey, frames⟩ (ascii '"') =
      .ok (.going ⟨.string (.key []) {}, frames⟩) := rfl
  have hcomplete : completeKey [] numeralKey frames = ⟨.between .numeralColon, frames⟩ := by
    simp [completeKey]
  have hcolon : State.step limit ⟨.between .numeralColon, frames⟩ (ascii ':') =
      .ok (.going ⟨.between .value, .numeral :: frames⟩) := rfl
  have hstring : State.step limit ⟨.between .value, .numeral :: frames⟩ (ascii '"') =
      .ok (.going ⟨.string .value {}, .numeral :: frames⟩) := rfl
  have hclose : State.step limit ⟨.between (.afterNumeral literal), frames⟩ (ascii '}') =
      complete (.number literal) true frames := rfl
  have hnumeral : ∀ here rest, resume limit (.string text) here rest (.numeral :: frames) =
      State.read limit ⟨.between (.afterNumeral literal), frames⟩ here rest := by
    intro here rest
    simp [resume, complete, hread]
  simp only [List.append_assoc, List.cons_append, List.nil_append]
  rw [read_spaces ha, read_cons hquote, read_key hkey, hcomplete, read_spaces hb,
    read_cons hcolon, read_spaces hc, read_cons hstring, read_string htext, hnumeral,
    read_spaces hd, read_complete hclose]
  simp

end Steps

theorem put_ne_nil (key : Text) (value : Json) (members : Members) :
    members.put key value ≠ [] := by
  cases members with
  | nil => simp [Members.put]
  | cons member rest =>
      obtain ⟨k, old⟩ := member
      unfold Members.put
      split <;> simp

theorem valueItems?_cons {item : Json} {rest values : List Json}
    (h : valueItems? (item :: rest) = some values) :
    ∃ value others, value? item = some value ∧ valueItems? rest = some others ∧
      values = value :: others := by
  simp only [valueItems?, Option.bind_eq_bind, Option.bind_eq_some_iff, Option.some.injEq] at h
  obtain ⟨value, hvalue, others, hothers, rfl⟩ := h
  exact ⟨value, others, hvalue, hothers, rfl⟩

theorem valueMembers?_cons {key : Text} {tree : Json} {rest values : Members}
    (h : valueMembers? ((key, tree) :: rest) = some values) :
    ∃ value others, value? tree = some value ∧ valueMembers? rest = some others ∧
      values = (key, value) :: others := by
  simp only [valueMembers?, valueMember?, Option.bind_eq_bind, Option.bind_eq_some_iff,
    Option.map_eq_some_iff, Option.some.injEq] at h
  obtain ⟨_, ⟨value, hvalue, rfl⟩, others, hothers, rfl⟩ := h
  exact ⟨value, others, hvalue, hothers, rfl⟩

theorem delimited_cons {b : UInt8} (h : NumberScan.EndsNumber b) (rest : List UInt8) :
    Delimited (b :: rest) := by
  intro c hc
  cases hc
  exact h

theorem delimited_spaces {w rest : List UInt8} (hw : Spaces w) (hrest : Delimited rest) :
    Delimited (w ++ rest) := by
  cases w with
  | nil => exact hrest
  | cons b w =>
      apply delimited_cons
      rcases hw b List.mem_cons_self with rfl | rfl | rfl | rfl <;>
        exact ⟨by decide, by decide, by decide, by decide⟩

theorem endsNumber_comma : NumberScan.EndsNumber (ascii ',') :=
  ⟨by decide, by decide, by decide, by decide⟩

theorem endsNumber_bracket : NumberScan.EndsNumber (ascii ']') :=
  ⟨by decide, by decide, by decide, by decide⟩

theorem endsNumber_brace : NumberScan.EndsNumber (ascii '}') :=
  ⟨by decide, by decide, by decide, by decide⟩

mutual

/-- A value of the grammar is read from any state that wants one, and what follows is read as
behind a complete value. -/
theorem read_spells {limit : Nat} {s : List UInt8} {tree : Json} (h : Spells s tree)
    {value : Json} (hvalue : value? tree = some value) {frames : List Frame}
    (hhost : Hosts frames) (hdepth : tree.depth + frames.length ≤ limit)
    {rest : List UInt8} (hrest : Delimited rest) (here : Position) :
    State.read limit ⟨.between .value, frames⟩ here (s ++ rest) =
      resume limit value (here.past s) rest frames := by
  cases h with
  | null =>
      cases hvalue
      exact read_ownWord (show State.step limit ⟨.between .value, frames⟩ (ascii 'n') =
        .ok (.going ⟨.word ("ull".toList.map ascii) .null, frames⟩) from rfl) (by decide)
  | true =>
      cases hvalue
      exact read_ownWord (show State.step limit ⟨.between .value, frames⟩ (ascii 't') =
        .ok (.going ⟨.word ("rue".toList.map ascii) (.bool true), frames⟩) from rfl) (by decide)
  | false =>
      cases hvalue
      exact read_ownWord (show State.step limit ⟨.between .value, frames⟩ (ascii 'f') =
        .ok (.going ⟨.word ("alse".toList.map ascii) (.bool false), frames⟩) from rfl) (by decide)
  | number h =>
      cases hvalue
      exact read_spellsNumber h hrest here
  | @string s text h =>
      cases hvalue
      have hstep : State.step limit ⟨.between .value, frames⟩ (ascii '"') =
          .ok (.going ⟨.string .value {}, frames⟩) := rfl
      simp only [List.append_assoc, List.cons_append, List.nil_append]
      rw [read_cons hstep, read_string h]
      simp
  | @emptyArray w hw =>
      cases hvalue
      have hclose : State.step limit ⟨.between .firstItem, frames⟩ (ascii ']') =
          complete (.array []) true frames := rfl
      simp only [depth] at hdepth
      simp only [List.append_assoc, List.cons_append, List.nil_append]
      rw [read_open_array hhost (by omega), read_spaces hw, read_complete hclose]
      simp
  | @array s items h =>
      obtain ⟨values, hvalues, rfl⟩ := Option.map_eq_some_iff.mp hvalue
      have hclose : State.step limit ⟨.between (.afterItem values.reverse), frames⟩ (ascii ']') =
          complete (.array values) true frames := by
        simp [State.step, stepBetween, stepToken, show isSpace (ascii ']') = false from rfl,
          show ascii ']' ≠ ascii ',' by decide]
      simp only [depth] at hdepth
      simp only [List.append_assoc, List.cons_append, List.nil_append]
      rw [read_open_array hhost (by omega),
        read_items h hvalues (by omega) .first (delimited_cons endsNumber_bracket rest),
        List.append_nil, read_complete hclose]
      simp
  | @emptyObject w hw =>
      cases hvalue
      have hclose : State.step limit ⟨.between .firstKey, frames⟩ (ascii '}') =
          complete (.object []) true frames := rfl
      simp only [depth] at hdepth
      simp only [List.append_assoc, List.cons_append, List.nil_append]
      rw [read_open_object hhost (by omega), read_spaces hw, read_complete hclose]
      simp [Members.collect]
  | @object s members h =>
      simp only [depth] at hdepth
      simp only [List.append_assoc, List.cons_append, List.nil_append]
      rw [read_open_object hhost (by omega)]
      simp only [value?] at hvalue
      split at hvalue
      · next hfirst =>
          rw [read_numeral h hfirst hvalue]
          simp
      · next hfirst =>
          obtain ⟨values, hvalues, rfl⟩ := Option.map_eq_some_iff.mp hvalue
          have hclose : State.step limit ⟨.between (.afterMember (Members.collect values)),
              frames⟩ (ascii '}') = complete (.object (Members.collect values)) true frames := by
            simp [State.step, stepBetween, stepToken, show isSpace (ascii '}') = false from rfl,
              show ascii '}' ≠ ascii ',' by decide]
          rw [read_members h hvalues (by omega) .first (fun _ => hfirst)
            (delimited_cons endsNumber_brace rest)]
          change State.read limit ⟨.between (.afterMember (Members.collect values)), frames⟩ _ _ = _
          rw [read_complete hclose]
          simp
termination_by structural tree

/-- The items of an array are read one after the other. -/
theorem read_items {limit : Nat} {s : List UInt8} {items : List Json} (h : SpellsItems s items)
    {values : List Json} (hvalues : valueItems? items = some values) {frames : List Frame}
    (hdepth : depthItems items + 1 + frames.length ≤ limit) {slot : Slot} {done : List Json}
    (hslot : ItemSlot slot done) {rest : List UInt8} (hrest : Delimited rest)
    (here : Position) :
    State.read limit ⟨.between slot, frames⟩ here (s ++ rest) =
      State.read limit ⟨.between (.afterItem (values.reverse ++ done)), frames⟩ (here.past s)
        rest := by
  cases h with
  | @one a s b item ha h hb =>
      obtain ⟨value, others, hvalue, hothers, rfl⟩ := valueItems?_cons hvalues
      cases hothers
      simp only [depthItems] at hdepth
      simp only [List.append_assoc]
      rw [read_spaces ha, read_item hslot h,
        read_spells h hvalue (hosts_list done frames) (by simp only [List.length_cons]; omega)
          (delimited_spaces hb hrest)]
      change State.read limit ⟨.between (.afterItem (value :: done)), frames⟩ _ _ = _
      rw [read_spaces hb]
      simp
  | @cons a s b r item items ha h hb hr =>
      obtain ⟨value, others, hvalue, hothers, rfl⟩ := valueItems?_cons hvalues
      have hcomma : State.step limit ⟨.between (.afterItem (value :: done)), frames⟩ (ascii ',') =
          .ok (.going ⟨.between (.nextItem (value :: done)), frames⟩) := rfl
      simp only [depthItems] at hdepth
      simp only [List.append_assoc, List.cons_append]
      rw [read_spaces ha, read_item hslot h,
        read_spells h hvalue (hosts_list done frames) (by simp only [List.length_cons]; omega)
          (delimited_spaces hb (delimited_cons endsNumber_comma _))]
      change State.read limit ⟨.between (.afterItem (value :: done)), frames⟩ _ _ = _
      rw [read_spaces hb, read_cons hcomma, read_items hr hothers (by omega) .next hrest]
      simp
termination_by structural items

/-- The members of an object are read one after the other, and put to those that were read. -/
theorem read_members {limit : Nat} {s : List UInt8} {members : Members}
    (h : SpellsMembers s members) {values : Members}
    (hvalues : valueMembers? members = some values) {frames : List Frame}
    (hdepth : depthMembers members + 1 + frames.length ≤ limit) {slot : Slot} {done : Members}
    (hslot : KeySlot slot done) (hfirst : done = [] → members.firstKey? ≠ some numeralKey)
    {rest : List UInt8} (hrest : Delimited rest) (here : Position) :
    State.read limit ⟨.between slot, frames⟩ here (s ++ rest) =
      State.read limit ⟨.between (.afterMember
        (values.foldl (fun done member => done.put member.1 member.2) done)), frames⟩
        (here.past s) rest := by
  cases h with
  | @one s member h =>
      obtain @⟨a, k, b, c, s, d, key, tree, ha, hkey, hb, hc, h, hd⟩ := h
      obtain ⟨value, others, hvalue, hothers, rfl⟩ := valueMembers?_cons hvalues
      cases hothers
      have hkeyFirst : done = [] → key ≠ numeralKey := by
        intro hdone hnumeral
        exact hfirst hdone (by simp [Members.firstKey?, hnumeral])
      simp only [depthMembers, depthMember] at hdepth
      rw [List.append_assoc, List.append_assoc, read_keyColon hslot ha hkey hb hc hkeyFirst,
        read_spells h hvalue (hosts_record done key frames)
          (by simp only [List.length_cons]; omega) (delimited_spaces hd hrest)]
      change State.read limit ⟨.between (.afterMember (done.put key value)), frames⟩ _ _ = _
      rw [read_spaces hd]
      simp
  | @cons s r member members h hr =>
      obtain @⟨a, k, b, c, s, d, key, tree, ha, hkey, hb, hc, h, hd⟩ := h
      obtain ⟨value, others, hvalue, hothers, rfl⟩ := valueMembers?_cons hvalues
      have hkeyFirst : done = [] → key ≠ numeralKey := by
        intro hdone hnumeral
        exact hfirst hdone (by simp [Members.firstKey?, hnumeral])
      have hcomma : State.step limit ⟨.between (.afterMember (done.put key value)), frames⟩
          (ascii ',') = .ok (.going ⟨.between (.nextKey (done.put key value)), frames⟩) := rfl
      have hne : done.put key value ≠ [] := put_ne_nil key value done
      have hbytes : a ++ ascii '"' :: k ++ ascii '"' :: b ++ ascii ':' :: c ++ s ++ d ++
          ascii ',' :: r ++ rest = a ++ ascii '"' :: k ++ ascii '"' :: b ++ ascii ':' :: c ++
            (s ++ (d ++ ascii ',' :: (r ++ rest))) := by simp
      simp only [depthMembers, depthMember] at hdepth
      rw [hbytes, read_keyColon hslot ha hkey hb hc hkeyFirst,
        read_spells h hvalue (hosts_record done key frames)
          (by simp only [List.length_cons]; omega)
          (delimited_spaces hd (delimited_cons endsNumber_comma _))]
      change State.read limit ⟨.between (.afterMember (done.put key value)), frames⟩ _ _ = _
      rw [read_spaces hd, read_cons hcomma,
        read_members hr hothers (by omega) (.next hne) (fun h => absurd h hne) hrest]
      simp
termination_by structural members

end

end Json

end QueryLabel
