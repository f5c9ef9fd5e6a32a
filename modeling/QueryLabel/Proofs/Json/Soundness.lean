import QueryLabel.Proofs.Json.Completeness

/-!
Nothing but documents of the grammar is read.  After the bytes that were read, the state of the
reader tells which part of a derivation they are (`Reached`): for every open container there is a
beginning of it, and the innermost one has got as far as the mode says.  A byte keeps this up
(`sound_step`), so what is read in the end has a derivation as a whole.
-/

namespace QueryLabel.Json

open Text (ascii)

/-- The bytes spell a value, with at most `room` containers open at a time. -/
def Reads (room : Nat) (s : List UInt8) (value : Json) : Prop :=
  ∃ tree, Spells s tree ∧ value? tree = some value ∧ tree.depth ≤ room

/-- The bytes spell items with these values. -/
def ReadsItems (room : Nat) (s : List UInt8) (values : List Json) : Prop :=
  ∃ items, SpellsItems s items ∧ valueItems? items = some values ∧ depthItems items ≤ room

/-- The bytes spell members, the first one without the numeral key, that are collected to
these. -/
def ReadsMembers (room : Nat) (s : List UInt8) (collected : Members) : Prop :=
  ∃ members values, SpellsMembers s members ∧ members.firstKey? ≠ some numeralKey ∧
    valueMembers? members = some values ∧ Members.collect values = collected ∧
    depthMembers members ≤ room

theorem spaces_append {v w : List UInt8} (hv : Spaces v) (hw : Spaces w) : Spaces (v ++ w) := by
  intro b hb
  rcases List.mem_append.mp hb with hb | hb
  · exact hv b hb
  · exact hw b hb

theorem spaces_nil : Spaces [] := by
  intro b hb
  cases hb

theorem spaces_singleton {b : UInt8} (h : isSpace b = true) : Spaces [b] := by
  intro c hc
  rw [List.mem_singleton] at hc
  subst hc
  simp only [isSpace, decide_eq_true_eq] at h
  rcases h with h | h | h | h
  · exact Or.inl h
  · exact Or.inr (Or.inl h)
  · exact Or.inr (Or.inr (Or.inr h))
  · exact Or.inr (Or.inr (Or.inl h))

/-! ### Lists that grow at their end -/

theorem SpellsItems.append_spaces {s w : List UInt8} {items : List Json}
    (h : SpellsItems s items) (hw : Spaces w) : SpellsItems (s ++ w) items := by
  cases h with
  | @one a s b item ha h hb =>
      have hone := SpellsItems.one ha h (spaces_append hb hw)
      simpa using hone
  | @cons a s b r item items ha h hb hr =>
      have hcons := SpellsItems.cons ha h hb (hr.append_spaces hw)
      simpa using hcons

theorem SpellsItems.snoc {s r : List UInt8} {items : List Json} {item : Json}
    (h : SpellsItems s items) (hr : SpellsItems r [item]) :
    SpellsItems (s ++ ascii ',' :: r) (items ++ [item]) := by
  cases h with
  | one ha h hb => exact .cons ha h hb hr
  | cons ha h hb htail =>
      have hcons := SpellsItems.cons ha h hb (htail.snoc hr)
      simpa using hcons

theorem SpellsMember.append_spaces {s w : List UInt8} {member : Text × Json}
    (h : SpellsMember s member) (hw : Spaces w) : SpellsMember (s ++ w) member := by
  cases h with
  | mk ha hkey hb hc h hd =>
      have hmember := SpellsMember.mk ha hkey hb hc h (spaces_append hd hw)
      simpa using hmember

theorem SpellsMembers.append_spaces {s w : List UInt8} {members : Members}
    (h : SpellsMembers s members) (hw : Spaces w) : SpellsMembers (s ++ w) members := by
  cases h with
  | one h => exact .one (h.append_spaces hw)
  | cons h hr =>
      have hcons := SpellsMembers.cons h (hr.append_spaces hw)
      simpa using hcons

theorem SpellsMembers.snoc {s r : List UInt8} {members : Members} {member : Text × Json}
    (h : SpellsMembers s members) (hr : SpellsMember r member) :
    SpellsMembers (s ++ ascii ',' :: r) (members ++ [member]) := by
  cases h with
  | one h => exact .cons h (.one hr)
  | cons h htail =>
      have hcons := SpellsMembers.cons h (htail.snoc hr)
      simpa using hcons

theorem valueItems?_append {items others values values' : List Json}
    (h : valueItems? items = some values) (h' : valueItems? others = some values') :
    valueItems? (items ++ others) = some (values ++ values') := by
  induction items generalizing values with
  | nil =>
      cases h
      exact h'
  | cons item items ih =>
      obtain ⟨value, rest, hvalue, hrest, rfl⟩ := valueItems?_cons h
      simp [valueItems?, hvalue, ih hrest]

theorem valueMembers?_append {members others values values' : Members}
    (h : valueMembers? members = some values) (h' : valueMembers? others = some values') :
    valueMembers? (members ++ others) = some (values ++ values') := by
  induction members generalizing values with
  | nil =>
      cases h
      exact h'
  | cons member members ih =>
      obtain ⟨key, tree⟩ := member
      obtain ⟨value, rest, hvalue, hrest, rfl⟩ := valueMembers?_cons h
      simp [valueMembers?, valueMember?, hvalue, ih hrest]

theorem depthItems_append (items others : List Json) :
    depthItems (items ++ others) = max (depthItems items) (depthItems others) := by
  induction items with
  | nil => simp [depthItems]
  | cons item items ih => simp [depthItems, ih, Nat.max_assoc]

theorem depthMembers_append (members others : Members) :
    depthMembers (members ++ others) = max (depthMembers members) (depthMembers others) := by
  induction members with
  | nil => simp [depthMembers]
  | cons member members ih => simp [depthMembers, ih, Nat.max_assoc]

section Reads

variable {room : Nat} {a b s r w k : List UInt8} {value : Json} {values : List Json}
  {members : Members} {key : Text}

theorem spellsItems_single {tree : Json} (ha : Spaces a) (hs : Spells s tree) :
    SpellsItems (a ++ s) [tree] := by
  have hitems := SpellsItems.one ha hs spaces_nil
  rwa [List.append_nil] at hitems

theorem ReadsItems.one (ha : Spaces a) (h : Reads room s value) :
    ReadsItems room (a ++ s) [value] := by
  obtain ⟨tree, hs, hvalue, hdepth⟩ := h
  exact ⟨[tree], spellsItems_single ha hs, by simp [valueItems?, hvalue],
    by simpa [depthItems] using hdepth⟩

theorem ReadsItems.snoc (h : ReadsItems room r values) (ha : Spaces a)
    (hs : Reads room s value) :
    ReadsItems room (r ++ ascii ',' :: (a ++ s)) (values ++ [value]) := by
  obtain ⟨items, hitems, hvalues, hdepth⟩ := h
  obtain ⟨tree, hs, hvalue, hdepth'⟩ := hs
  have hlast : valueItems? [tree] = some [value] := by simp [valueItems?, hvalue]
  refine ⟨items ++ [tree], hitems.snoc (spellsItems_single ha hs),
    valueItems?_append hvalues hlast, ?_⟩
  rw [depthItems_append]
  simp only [depthItems]
  omega

theorem ReadsItems.append_spaces (h : ReadsItems room s values) (hw : Spaces w) :
    ReadsItems room (s ++ w) values := by
  obtain ⟨items, hitems, hvalues, hdepth⟩ := h
  exact ⟨items, hitems.append_spaces hw, hvalues, hdepth⟩

theorem Reads.array (h : ReadsItems room s values) :
    Reads (room + 1) (ascii '[' :: s ++ [ascii ']']) (.array values) := by
  obtain ⟨items, hitems, hvalues, hdepth⟩ := h
  exact ⟨.array items, .array hitems, by simp [value?, hvalues], by simpa [depth] using hdepth⟩

theorem Reads.emptyArray (hw : Spaces w) :
    Reads (room + 1) (ascii '[' :: w ++ [ascii ']']) (.array []) :=
  ⟨.array [], .emptyArray hw, rfl, by simp [depth, depthItems]⟩

theorem Reads.emptyObject (hw : Spaces w) :
    Reads (room + 1) (ascii '{' :: w ++ [ascii '}']) (.object []) :=
  ⟨.object [], .emptyObject hw, rfl, by simp [depth, depthMembers]⟩

theorem Reads.object (h : ReadsMembers room s members) :
    Reads (room + 1) (ascii '{' :: s ++ [ascii '}']) (.object members) := by
  obtain ⟨trees, values, hs, hfirst, hvalues, rfl, hdepth⟩ := h
  exact ⟨.object trees, .object hs, by simp [value?, hfirst, hvalues],
    by simpa [depth] using hdepth⟩

theorem Reads.numeral {text literal : Text} (h : SpellsMember s (numeralKey, .string text))
    (hread : readNumeral text = .ok literal) :
    Reads (room + 1) (ascii '{' :: s ++ [ascii '}']) (.number literal) := by
  refine ⟨.object [(numeralKey, .string text)], .object (.one h), ?_, ?_⟩
  · simp [value?, Members.firstKey?, numeralValue?, hread, Except.toOption]
  · simp [depth, depthMembers, depthMember]

/-- A key of a member, with white space around it. -/
inductive Keyed : List UInt8 → Text → Prop
  | mk {a k b : List UInt8} {key : Text} (ha : Spaces a) (hk : SpellsText k key)
      (hb : Spaces b) : Keyed (a ++ ascii '"' :: k ++ ascii '"' :: b) key

theorem Keyed.spellsMember {tree : Json} (hk : Keyed k key) (ha : Spaces a)
    (hs : Spells s tree) : SpellsMember (k ++ ascii ':' :: (a ++ s)) (key, tree) := by
  cases hk with
  | mk hbefore hk hbehind =>
      have hmember := SpellsMember.mk hbefore hk hbehind ha hs spaces_nil
      simpa using hmember

theorem Keyed.append_spaces (hk : Keyed k key) (hw : Spaces w) : Keyed (k ++ w) key := by
  cases hk with
  | mk ha hk hb =>
      have hkeyed := Keyed.mk ha hk (spaces_append hb hw)
      simpa using hkeyed

theorem ReadsMembers.one (hk : Keyed k key) (hfirst : key ≠ numeralKey) (ha : Spaces a)
    (h : Reads room s value) :
    ReadsMembers room (k ++ ascii ':' :: (a ++ s)) (Members.put key value []) := by
  obtain ⟨tree, hs, hvalue, hdepth⟩ := h
  refine ⟨[(key, tree)], [(key, value)], .one (hk.spellsMember ha hs), ?_, ?_, rfl, ?_⟩
  · simpa [Members.firstKey?] using hfirst
  · simp [valueMembers?, valueMember?, hvalue]
  · simpa [depthMembers, depthMember] using hdepth

theorem ReadsMembers.snoc (h : ReadsMembers room r members) (hk : Keyed k key) (ha : Spaces a)
    (hs : Reads room s value) :
    ReadsMembers room (r ++ ascii ',' :: (k ++ ascii ':' :: (a ++ s)))
      (members.put key value) := by
  obtain ⟨trees, values, htrees, hfirst, hvalues, rfl, hdepth⟩ := h
  obtain ⟨tree, hs, hvalue, hdepth'⟩ := hs
  have hlast : valueMembers? [(key, tree)] = some [(key, value)] := by
    simp [valueMembers?, valueMember?, hvalue]
  refine ⟨trees ++ [(key, tree)], values ++ [(key, value)],
    htrees.snoc (hk.spellsMember ha hs), ?_, valueMembers?_append hvalues hlast, ?_, ?_⟩
  · cases htrees <;> simpa [Members.firstKey?] using hfirst
  · simp [Members.collect]
  · rw [depthMembers_append]
    simp only [depthMembers, depthMember]
    omega

theorem ReadsMembers.append_spaces (h : ReadsMembers room s members) (hw : Spaces w) :
    ReadsMembers room (s ++ w) members := by
  obtain ⟨trees, values, htrees, hrest⟩ := h
  exact ⟨trees, values, htrees.append_spaces hw, hrest⟩

theorem ReadsMembers.ne_nil (h : ReadsMembers room s members) : members ≠ [] := by
  obtain ⟨trees, values, htrees, -, hvalues, rfl, -⟩ := h
  have hputs : ∀ (rest : Members) {done : Members}, done ≠ [] →
      rest.foldl (fun done member => Members.put member.1 member.2 done) done ≠ [] := by
    intro rest
    induction rest with
    | nil => exact fun hdone => hdone
    | cons member rest ih => exact fun hdone => ih (put_ne_nil _ _ _)
  cases trees with
  | nil => cases htrees
  | cons member rest =>
      obtain ⟨key, tree⟩ := member
      obtain ⟨value, others, -, -, rfl⟩ := valueMembers?_cons hvalues
      exact hputs others (put_ne_nil key value [])

end Reads

/-! ### What a state tells about the bytes that led to it -/

mutual

/-- The bytes lead to a place for a value inside these containers. -/
inductive Opened (limit : Nat) : List UInt8 → List Frame → Prop
  | root : Opened limit [] []
  | firstItem {q : List UInt8} {frames : List Frame} (hq : Entered limit (ascii '[') q frames) :
      Opened limit q (.list [] :: frames)
  | nextItem {q s : List UInt8} {frames : List Frame} {items : List Json}
      (hq : Entered limit (ascii '[') q frames)
      (hs : ReadsItems (limit - (frames.length + 1)) s items.reverse) :
      Opened limit (q ++ s ++ [ascii ',']) (.list items :: frames)
  | firstMember {q k : List UInt8} {frames : List Frame} {key : Text}
      (hq : Entered limit (ascii '{') q frames) (hk : Keyed k key) (hkey : key ≠ numeralKey) :
      Opened limit (q ++ k ++ [ascii ':']) (.record [] key :: frames)
  | nextMember {q s k : List UInt8} {frames : List Frame} {members : Members} {key : Text}
      (hq : Entered limit (ascii '{') q frames)
      (hs : ReadsMembers (limit - (frames.length + 1)) s members) (hk : Keyed k key) :
      Opened limit (q ++ s ++ ascii ',' :: k ++ [ascii ':']) (.record members key :: frames)
  | numeral {q k : List UInt8} {frames : List Frame} (hq : Entered limit (ascii '{') q frames)
      (hk : Keyed k numeralKey) : Opened limit (q ++ k ++ [ascii ':']) (.numeral :: frames)

/-- The bytes end with the bracket of one more container inside these. -/
inductive Entered (limit : Nat) : UInt8 → List UInt8 → List Frame → Prop
  | mk {bracket : UInt8} {q w : List UInt8} {frames : List Frame} (hq : Opened limit q frames)
      (hw : Spaces w) (hhost : Hosts frames) (hlimit : frames.length < limit) :
      Entered limit bracket (q ++ w ++ [bracket]) frames

end

/-- The bytes lead to a place between two tokens. -/
inductive Slotted (limit : Nat) : List UInt8 → Slot → List Frame → Prop
  | value {q : List UInt8} {frames : List Frame} (hq : Opened limit q frames) :
      Slotted limit q .value frames
  | firstItem {q : List UInt8} {frames : List Frame} (hq : Entered limit (ascii '[') q frames) :
      Slotted limit q .firstItem frames
  | nextItem {q s : List UInt8} {frames : List Frame} {items : List Json}
      (hq : Entered limit (ascii '[') q frames)
      (hs : ReadsItems (limit - (frames.length + 1)) s items.reverse) :
      Slotted limit (q ++ s ++ [ascii ',']) (.nextItem items) frames
  | afterItem {q s : List UInt8} {frames : List Frame} {items : List Json}
      (hq : Entered limit (ascii '[') q frames)
      (hs : ReadsItems (limit - (frames.length + 1)) s items.reverse) :
      Slotted limit (q ++ s) (.afterItem items) frames
  | firstKey {q : List UInt8} {frames : List Frame} (hq : Entered limit (ascii '{') q frames) :
      Slotted limit q .firstKey frames
  | nextKey {q s : List UInt8} {frames : List Frame} {members : Members}
      (hq : Entered limit (ascii '{') q frames)
      (hs : ReadsMembers (limit - (frames.length + 1)) s members) :
      Slotted limit (q ++ s ++ [ascii ',']) (.nextKey members) frames
  | firstColon {q k : List UInt8} {frames : List Frame} {key : Text}
      (hq : Entered limit (ascii '{') q frames) (hk : Keyed k key) (hkey : key ≠ numeralKey) :
      Slotted limit (q ++ k) (.colon [] key) frames
  | nextColon {q s k : List UInt8} {frames : List Frame} {members : Members} {key : Text}
      (hq : Entered limit (ascii '{') q frames)
      (hs : ReadsMembers (limit - (frames.length + 1)) s members) (hk : Keyed k key) :
      Slotted limit (q ++ s ++ ascii ',' :: k) (.colon members key) frames
  | afterMember {q s : List UInt8} {frames : List Frame} {members : Members}
      (hq : Entered limit (ascii '{') q frames)
      (hs : ReadsMembers (limit - (frames.length + 1)) s members) :
      Slotted limit (q ++ s) (.afterMember members) frames
  | numeralColon {q k : List UInt8} {frames : List Frame}
      (hq : Entered limit (ascii '{') q frames) (hk : Keyed k numeralKey) :
      Slotted limit (q ++ k) .numeralColon frames
  | afterNumeral {q s : List UInt8} {frames : List Frame} {text literal : Text}
      (hq : Entered limit (ascii '{') q frames)
      (hs : SpellsMember s (numeralKey, .string text))
      (hread : readNumeral text = .ok literal) :
      Slotted limit (q ++ s) (.afterNumeral literal) frames

/-- The bytes lead to a state of the reader. -/
inductive Reached (limit : Nat) : List UInt8 → State → Prop
  | between {q w : List UInt8} {slot : Slot} {frames : List Frame}
      (hq : Slotted limit q slot frames) (hw : Spaces w) :
      Reached limit (q ++ w) ⟨.between slot, frames⟩
  | word {q w s left : List UInt8} {value : Json} {frames : List Frame}
      (hq : Opened limit q frames) (hw : Spaces w)
      (hs : Reads (limit - frames.length) (s ++ left) value) :
      Reached limit (q ++ w ++ s) ⟨.word left value, frames⟩
  | number {q w s : List UInt8} {scan : NumberScan} {frames : List Frame}
      (hq : Opened limit q frames) (hw : Spaces w) (hs : NumberScan.scan? s = some scan) :
      Reached limit (q ++ w ++ s) ⟨.number scan, frames⟩
  | string {q w s : List UInt8} {scan : StringScan} {frames : List Frame}
      (hq : Opened limit q frames) (hw : Spaces w) (hs : StringScan.run? {} s = some scan) :
      Reached limit (q ++ w ++ ascii '"' :: s) ⟨.string .value scan, frames⟩
  | key {q w s : List UInt8} {slot : Slot} {members : Members} {scan : StringScan}
      {frames : List Frame} (hq : Slotted limit q slot frames) (hslot : KeySlot slot members)
      (hw : Spaces w) (hs : StringScan.run? {} s = some scan) :
      Reached limit (q ++ w ++ ascii '"' :: s) ⟨.string (.key members) scan, frames⟩

/-- The bytes are white space and a value. -/
def Whole (limit : Nat) (p : List UInt8) (value : Json) : Prop :=
  ∃ w s, p = w ++ s ∧ Spaces w ∧ Reads limit s value

/-- What a byte led to is true of the bytes before it or with it. -/
def Progress.Sound (limit : Nat) (before after : List UInt8) : Progress → Prop
  | going state => Reached limit after state
  | finished value true => Whole limit after value
  | finished value false => Whole limit before value

section Sound

variable {limit : Nat} {frames : List Frame} {q w s p : List UInt8} {value : Json} {b : UInt8}

theorem Reached.slotted {slot : Slot} (h : Slotted limit q slot frames) :
    Reached limit q ⟨.between slot, frames⟩ := by
  have hreached := Reached.between h spaces_nil
  rwa [List.append_nil] at hreached

/-- Nothing but a string stands for a string. -/
theorem string_of_reads {room : Nat} {text : Text} (h : Reads room s (.string text)) :
    Spells s (.string text) := by
  obtain ⟨tree, hs, hvalue, -⟩ := h
  cases tree with
  | null | bool | number => simp [value?] at hvalue
  | string other =>
      cases hvalue
      exact hs
  | array items => simp [value?] at hvalue
  | object members =>
      simp only [value?] at hvalue
      split at hvalue
      · obtain ⟨-, -, literal, -, -, hnumber⟩ := of_numeralValue? hvalue
        cases hnumber
      · simp at hvalue

/-- A value that is complete leads behind it in the innermost container. -/
theorem slotted_of_complete (hq : Opened limit q frames) (hw : Spaces w)
    (hs : Reads (limit - frames.length) s value) {tookByte : Bool} {progress : Progress}
    (h : complete value tookByte frames = .ok progress) :
    (frames = [] ∧ progress = .finished value tookByte ∧ Whole limit (q ++ w ++ s) value) ∨
      ∃ slot outer, progress = .going ⟨.between slot, outer⟩ ∧
        Slotted limit (q ++ w ++ s) slot outer := by
  cases hq with
  | root =>
      cases h
      exact Or.inl ⟨rfl, rfl, w, s, rfl, hw, hs⟩
  | firstItem hq =>
      cases h
      refine Or.inr ⟨_, _, rfl, ?_⟩
      rw [List.append_assoc]
      exact .afterItem hq (.one hw hs)
  | @nextItem q r _ items hq hr =>
      cases h
      refine Or.inr ⟨_, _, rfl, ?_⟩
      have hitems := hr.snoc hw hs
      rw [← List.reverse_cons] at hitems
      simpa using Slotted.afterItem hq hitems
  | @firstMember q k _ key hq hk hkey =>
      cases h
      refine Or.inr ⟨_, _, rfl, ?_⟩
      simpa using Slotted.afterMember hq (.one hk hkey hw hs)
  | @nextMember q r k _ members key hq hr hk =>
      cases h
      refine Or.inr ⟨_, _, rfl, ?_⟩
      simpa using Slotted.afterMember hq (hr.snoc hk hw hs)
  | @numeral q k _ hq hk =>
      cases value with
      | null | bool | number | array | object => simp [complete] at h
      | string text =>
          simp only [complete] at h
          split at h
          · next literal hread =>
              cases h
              refine Or.inr ⟨_, _, rfl, ?_⟩
              simpa using Slotted.afterNumeral hq (hk.spellsMember hw (string_of_reads hs)) hread
          · contradiction

/-- A value that its last byte completes. -/
theorem sound_complete (hq : Opened limit q frames) (hw : Spaces w)
    (hs : Reads (limit - frames.length) s value) {progress : Progress}
    (h : complete value true frames = .ok progress) (before : List UInt8) :
    progress.Sound limit before (q ++ w ++ s) := by
  rcases slotted_of_complete hq hw hs h with ⟨rfl, rfl, hwhole⟩ | ⟨slot, outer, rfl, hslot⟩
  · exact hwhole
  · exact .slotted hslot

/-- A container that is closed. -/
theorem sound_close {bracket : UInt8} (hq : Entered limit bracket q frames)
    (hs : Reads (limit - (frames.length + 1) + 1) (bracket :: s) value) {progress : Progress}
    (h : complete value true frames = .ok progress) (before : List UInt8) :
    progress.Sound limit before (q ++ s) := by
  cases hq with
  | @mk _ q w _ hq hw hhost hlimit =>
      have hroom : limit - (frames.length + 1) + 1 = limit - frames.length := by omega
      rw [hroom] at hs
      simpa using sound_complete hq hw hs h before

theorem of_openContainer {slot : Slot} {kind : Found} {state : State}
    (h : openContainer limit slot kind frames = .ok state) :
    Hosts frames ∧ frames.length < limit ∧ state = ⟨.between slot, frames⟩ := by
  unfold openContainer at h
  split at h
  · contradiction
  · next hne =>
      split at h
      · next hlimit =>
          cases h
          exact ⟨fun outer heq => hne outer heq, hlimit, rfl⟩
      · contradiction

theorem reads_word {tree : Json} (hs : Spells s tree) (hvalue : value? tree = some tree)
    (hdepth : tree.depth = 0) (room : Nat) : Reads room s tree :=
  ⟨tree, hs, hvalue, by omega⟩

/-- The first byte of a value. -/
theorem reached_startValue (hq : Opened limit q frames) (hw : Spaces w) {state : State}
    (h : startValue limit frames b = .ok state) : Reached limit (q ++ w ++ [b]) state := by
  unfold startValue at h
  split at h
  · next hb =>
      subst hb
      cases h
      exact .string hq hw rfl
  split at h
  · next hb =>
      subst hb
      obtain ⟨hhost, hlimit, rfl⟩ := of_openContainer h
      exact .slotted (.firstItem (.mk hq hw hhost hlimit))
  split at h
  · next hb =>
      subst hb
      obtain ⟨hhost, hlimit, rfl⟩ := of_openContainer h
      exact .slotted (.firstKey (.mk hq hw hhost hlimit))
  split at h
  · next hb =>
      subst hb
      cases h
      exact .word hq hw (reads_word .null rfl rfl _)
  split at h
  · next hb =>
      subst hb
      cases h
      exact .word hq hw (reads_word .true rfl rfl _)
  split at h
  · next hb =>
      subst hb
      cases h
      exact .word hq hw (reads_word .false rfl rfl _)
  split at h
  · next scan hstart =>
      cases h
      exact .number hq hw (by simp [NumberScan.scan?, hstart, NumberScan.run?])
  · contradiction

/-- The first byte of a value that is looked at between two tokens. -/
theorem sound_startValue (hq : Opened limit q frames) (hw : Spaces w) {progress : Progress}
    (h : Progress.going <$> startValue limit frames b = .ok progress) (before : List UInt8) :
    progress.Sound limit before (q ++ w ++ [b]) := by
  cases hstart : startValue limit frames b with
  | error fault => simp [hstart, Functor.map, Except.map] at h
  | ok state =>
      simp only [hstart, Functor.map, Except.map, Except.ok.injEq] at h
      subst h
      exact reached_startValue hq hw hstart

/-- Only one byte goes on. -/
theorem of_only {x : UInt8} {next : State} {cause : Cause} {progress : Progress}
    (h : (if b = x then .ok (.going next) else refuse cause) = .ok progress) :
    b = x ∧ progress = .going next := by
  by_cases hx : b = x
  · rw [if_pos hx] at h
    exact ⟨hx, (Except.ok.inj h).symm⟩
  · rw [if_neg hx] at h
    cases h

/-- One byte goes on, and another one ends the container. -/
theorem of_either {x y : UInt8} {next : State} {closed : Except Fault Progress} {cause : Cause}
    {progress : Progress}
    (h : (if b = x then .ok (.going next) else if b = y then closed else refuse cause) =
      .ok progress) :
    (b = x ∧ progress = .going next) ∨ (b = y ∧ closed = .ok progress) := by
  by_cases hx : b = x
  · rw [if_pos hx] at h
    exact Or.inl ⟨hx, (Except.ok.inj h).symm⟩
  · rw [if_neg hx] at h
    by_cases hy : b = y
    · rw [if_pos hy] at h
      exact Or.inr ⟨hy, h⟩
    · rw [if_neg hy] at h
      cases h

/-- A token, or its first byte, between two tokens. -/
theorem sound_stepToken {slot : Slot} (hq : Slotted limit q slot frames) (hw : Spaces w)
    {progress : Progress} (h : stepToken limit slot frames b = .ok progress)
    (before : List UInt8) : progress.Sound limit before (q ++ w ++ [b]) := by
  cases hq with
  | value hq => exact sound_startValue hq hw h before
  | firstItem hq =>
      simp only [stepToken] at h
      split at h
      · next hb =>
          subst hb
          rw [List.append_assoc]
          exact sound_close hq (.emptyArray hw) h before
      · exact sound_startValue (.firstItem hq) hw h before
  | nextItem hq hs =>
      simp only [stepToken] at h
      split at h
      · contradiction
      · exact sound_startValue (.nextItem hq hs) hw h before
  | @afterItem q s _ items hq hs =>
      have hs := hs.append_spaces hw
      rw [List.append_assoc q]
      rcases of_either h with ⟨rfl, rfl⟩ | ⟨rfl, h⟩
      · exact .slotted (.nextItem hq hs)
      · rw [List.append_assoc q]
        exact sound_close hq (.array hs) h before
  | firstKey hq =>
      rcases of_either h with ⟨rfl, rfl⟩ | ⟨rfl, h⟩
      · exact .key (.firstKey hq) .first hw rfl
      · rw [List.append_assoc]
        exact sound_close hq (.emptyObject hw) h before
  | nextKey hq hs =>
      rcases of_either h with ⟨rfl, rfl⟩ | ⟨-, h⟩
      · exact .key (.nextKey hq hs) (.next hs.ne_nil) hw rfl
      · contradiction
  | @firstColon q k _ key hq hk hkey =>
      have hk := hk.append_spaces hw
      obtain ⟨rfl, rfl⟩ := of_only h
      rw [List.append_assoc q]
      exact .slotted (.value (.firstMember hq hk hkey))
  | @nextColon q s k _ members key hq hs hk =>
      have hk := hk.append_spaces hw
      obtain ⟨rfl, rfl⟩ := of_only h
      have hnext := Reached.slotted (.value (.nextMember hq hs hk))
      simpa [Progress.Sound] using hnext
  | @afterMember q s _ members hq hs =>
      have hs := hs.append_spaces hw
      rw [List.append_assoc q]
      rcases of_either h with ⟨rfl, rfl⟩ | ⟨rfl, h⟩
      · exact .slotted (.nextKey hq hs)
      · rw [List.append_assoc q]
        exact sound_close hq (.object hs) h before
  | @numeralColon q k _ hq hk =>
      have hk := hk.append_spaces hw
      obtain ⟨rfl, rfl⟩ := of_only h
      rw [List.append_assoc q]
      exact .slotted (.value (.numeral hq hk))
  | @afterNumeral q s _ text literal hq hs hread =>
      have hs := hs.append_spaces hw
      simp only [stepToken] at h
      split at h
      · next hb =>
          subst hb
          rw [List.append_assoc q, List.append_assoc q]
          exact sound_close hq (.numeral hs hread) h before
      · split at h <;> contradiction

theorem sound_stepBetween {slot : Slot} (hq : Slotted limit q slot frames) (hw : Spaces w)
    {progress : Progress} (h : stepBetween limit slot frames b = .ok progress)
    (before : List UInt8) : progress.Sound limit before (q ++ w ++ [b]) := by
  unfold stepBetween at h
  split at h
  · next hspace =>
      cases h
      rw [List.append_assoc]
      exact .between hq (spaces_append hw (spaces_singleton hspace))
  · exact sound_stepToken hq hw h before

/-- A byte inside a word. -/
theorem sound_stepWord {left : List UInt8} (hq : Opened limit q frames) (hw : Spaces w)
    (hs : Reads (limit - frames.length) (s ++ left) value) {progress : Progress}
    (h : stepWord left value frames b = .ok progress) (before : List UInt8) :
    progress.Sound limit before (q ++ w ++ s ++ [b]) := by
  cases left with
  | nil => contradiction
  | cons next left =>
      cases left with
      | nil =>
          simp only [stepWord] at h
          split at h
          · next hb =>
              subst hb
              rw [List.append_assoc]
              exact sound_complete hq hw hs h before
          · contradiction
      | cons last left =>
          simp only [stepWord] at h
          split at h
          · next hb =>
              subst hb
              cases h
              rw [List.append_assoc]
              refine .word hq hw ?_
              simpa using hs
          · contradiction

/-- A byte in or behind a number. -/
theorem sound_stepNumber {scan : NumberScan} (hq : Opened limit q frames) (hw : Spaces w)
    (hs : NumberScan.scan? s = some scan) {progress : Progress}
    (h : stepNumber limit scan frames b = .ok progress) :
    progress.Sound limit (q ++ w ++ s) (q ++ w ++ s ++ [b]) := by
  unfold stepNumber at h
  split at h
  · next next hstep =>
      cases h
      rw [List.append_assoc (q ++ w)]
      refine .number hq hw ?_
      have hne : s ≠ [] := by
        rintro rfl
        cases hs
      rw [NumberScan.scan?_append hne, hs]
      exact NumberScan.run?_cons hstep []
  · next hended =>
      -- The number is complete without the byte, which is then one between two tokens.
      have hnumber := NumberScan.spells_of_scan? hs (NumberScan.mayEnd_of_step_ended hended)
      have hreads : Reads (limit - frames.length) s (.number scan.literal) :=
        reads_word (.number hnumber) rfl rfl _
      split at h
      · next slot outer hcomplete =>
          rcases slotted_of_complete hq hw hreads hcomplete with
            ⟨-, heq, -⟩ | ⟨slot', outer', heq, hslot⟩
          · contradiction
          · cases heq
            have hsound := sound_stepBetween hslot spaces_nil h (q ++ w ++ s)
            rwa [List.append_nil] at hsound
      · next hother =>
          rcases slotted_of_complete hq hw hreads h with
            ⟨-, rfl, hwhole⟩ | ⟨slot, outer, rfl, -⟩
          · exact hwhole
          · exact absurd h (hother slot outer)
  all_goals contradiction

/-- A step inside a string leads on in the string, or closes it with the text that it spells. -/
theorem of_stepString {use : StringUse} {scan : StringScan} (hs : StringScan.run? {} s = some scan)
    {progress : Progress} (h : stepString use scan frames b = .ok progress) :
    (∃ next, StringScan.run? {} (s ++ [b]) = some next ∧
      progress = .going ⟨.string use next, frames⟩) ∨
    ∃ text, b = ascii '"' ∧ SpellsText s text ∧
      (match use with
        | .value => complete (.string text) true frames
        | .key members => .ok (.going (completeKey members text frames))) = .ok progress := by
  unfold stepString at h
  cases hstep : scan.step b with
  | error fault => simp [hstep, bind, Except.bind] at h
  | ok outcome =>
      rw [hstep] at h
      cases outcome with
      | more next =>
          cases h
          refine Or.inl ⟨next, ?_, rfl⟩
          rw [StringScan.run?_append, hs]
          exact StringScan.run?_cons hstep []
      | closed text =>
          obtain ⟨hb, htext⟩ := StringScan.spells_of_closed hs hstep
          refine Or.inr ⟨text, hb, htext, ?_⟩
          cases use <;> exact h

/-- A key that is complete. -/
theorem reached_completeKey {slot : Slot} {members : Members} {k : List UInt8} {key : Text}
    (hq : Slotted limit q slot frames) (hslot : KeySlot slot members) (hk : Keyed k key) :
    Reached limit (q ++ k) (completeKey members key frames) := by
  unfold completeKey
  split
  · next hnumeral =>
      obtain ⟨hempty, rfl⟩ := hnumeral
      cases hslot with
      | first =>
          cases hq with
          | firstKey hq => exact .slotted (.numeralColon hq hk)
      | next hne => exact absurd (List.isEmpty_iff.mp hempty) hne
  · next hkey =>
      cases hslot with
      | first =>
          cases hq with
          | firstKey hq =>
              refine .slotted (.firstColon hq hk ?_)
              rintro rfl
              exact hkey ⟨rfl, rfl⟩
      | next hne =>
          cases hq with
          | nextKey hq hs =>
              have hcolon := Reached.slotted (.nextColon hq hs hk)
              simpa using hcolon

/-- One byte keeps up what the state tells about the bytes before it. -/
theorem sound_step {state : State} (hp : Reached limit p state) {progress : Progress}
    (h : state.step limit b = .ok progress) : progress.Sound limit p (p ++ [b]) := by
  cases hp with
  | between hq hw => exact sound_stepBetween hq hw h _
  | word hq hw hs => exact sound_stepWord hq hw hs h _
  | number hq hw hs => exact sound_stepNumber hq hw hs h
  | @string q w s scan frames hq hw hs =>
      rcases of_stepString hs h with ⟨next, hnext, rfl⟩ | ⟨text, rfl, htext, hcomplete⟩
      · have hreached := Reached.string hq hw hnext
        simpa [Progress.Sound] using hreached
      · have hreads : Reads (limit - frames.length) (ascii '"' :: s ++ [ascii '"'])
            (.string text) := reads_word (.string htext) rfl rfl _
        have hsound := sound_complete hq hw hreads hcomplete (q ++ w ++ ascii '"' :: s)
        simpa using hsound
  | @key q w s slot members scan frames hq hslot hw hs =>
      rcases of_stepString hs h with ⟨next, hnext, rfl⟩ | ⟨text, rfl, htext, hcomplete⟩
      · have hreached := Reached.key hq hslot hw hnext
        simpa [Progress.Sound] using hreached
      · cases hcomplete
        have hreached := reached_completeKey hq hslot (.mk hw htext spaces_nil)
        simpa [Progress.Sound] using hreached

/-- Where a document may end, it is white space and a value. -/
theorem whole_of_finish {state : State} (hp : Reached limit p state)
    (h : state.finish = .ok value) : Whole limit p value := by
  cases hp with
  | between | word | string | key => contradiction
  | @number q w s scan frames hq hw hs =>
      simp only [State.finish] at h
      split at h
      · next hend =>
          have hreads : Reads (limit - frames.length) s (.number scan.literal) :=
            reads_word (.number (NumberScan.spells_of_scan? hs hend)) rfl rfl _
          cases hcomplete : complete (.number scan.literal) false frames with
          | error fault => simp [hcomplete, bind, Except.bind] at h
          | ok progress =>
              rcases slotted_of_complete hq hw hreads hcomplete with
                ⟨-, rfl, hwhole⟩ | ⟨slot, outer, rfl, -⟩
              · simp only [hcomplete, bind, Except.bind, pure, Except.pure] at h
                cases h
                exact hwhole
              · simp [hcomplete, bind, Except.bind, refuse] at h
      · contradiction

/-- What is read from the bytes on is spelled by the bytes that were read, up to those that
are left. -/
theorem whole_of_read {state : State} (hp : Reached limit p state) {here here' : Position}
    {rest rest' : List UInt8} (h : state.read limit here rest = .ok (value, here', rest')) :
    ∃ s, p ++ rest = s ++ rest' ∧ Whole limit s value := by
  induction rest generalizing state p here with
  | nil =>
      unfold State.read at h
      split at h
      · next hfinish =>
          cases h
          exact ⟨p, rfl, whole_of_finish hp hfinish⟩
      · contradiction
  | cons b rest ih =>
      unfold State.read at h
      split at h
      · next next hstep =>
          obtain ⟨s, hs, hwhole⟩ := ih (sound_step hp hstep) h
          exact ⟨s, by simpa using hs, hwhole⟩
      · next hstep =>
          cases h
          exact ⟨p ++ [b], by simp, sound_step hp hstep⟩
      · next hstep =>
          cases h
          exact ⟨p, rfl, sound_step hp hstep⟩
      · contradiction

end Sound

end QueryLabel.Json
