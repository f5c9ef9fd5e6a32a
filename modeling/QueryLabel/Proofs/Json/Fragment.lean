import Mathlib.Data.List.Basic
import QueryLabel.Proofs.Filter.Crash
import QueryLabel.Proofs.Json.Printable

/-!
Fragments of strings in the spaced style.  A fragment is written slice by slice: whatever may stay
is left until the next character that has to be escaped, and is then cut out between two byte
offsets.  No cut goes wrong, and all the slices and escapes together are the characters one by one
(`FragmentEscaping.written`).  So it makes no difference where a string is cut into fragments, and
UTF-16 tells what was escaped (`asciiText_escaping`).
-/

namespace QueryLabel.Json

open QueryLabel.Filter (byteSize byteSize_append CutsAt dropBytes? takeBytes?
  takeBytes?_dropBytes?)
open Text (fourDigits)

/-! ### Slices -/

/-- A character that a fragment keeps: the ones in ASCII but U+007F. -/
def isKept (c : Char) : Bool :=
  c.toNat < 0x80 && c.toNat ≠ 0x7F

/-- The part of a text between two byte offsets.  There is none if they are out of order, or if one
of them lies inside a character. -/
def slice? (text : Text) (start stop : Nat) : Option Text :=
  if start ≤ stop then (dropBytes? start text).bind (takeBytes? (stop - start)) else none

/-- How far a fragment was written: the offset at which the next slice begins, and what was written
before. -/
structure Slicing where
  start : Nat := 0
  written : Text := []

namespace Slicing

/-- Go past a character at an offset.  One that has to be escaped is written behind the slice in
front of it. -/
def step (fragment : Text) (index : Nat) (c : Char) (s : Slicing) : Option Slicing :=
  if isKept c then some s
  else do
    let slice ← slice? fragment s.start index
    some ⟨index + c.utf8Size, s.written ++ slice ++ (utf16Units c).flatMap unitEscape⟩

/-- Go past the characters of a text, the first of which stands at an offset. -/
def run (fragment : Text) : Nat → Text → Slicing → Option Slicing
  | _, [], s => some s
  | index, c :: rest, s => do
      let s ← s.step fragment index c
      run fragment (index + c.utf8Size) rest s

end Slicing

/-- Write a fragment slice by slice. -/
def writeSlices? (fragment : Text) : Option Text := do
  let s ← Slicing.run fragment 0 fragment {}
  let slice ← slice? fragment s.start (byteSize fragment)
  some (s.written ++ slice)

theorem asciiForm_of_isKept {c : Char} (h : isKept c = true) : asciiForm c = [c] := by
  simp only [isKept, Bool.and_eq_true, decide_eq_true_eq] at h
  exact if_pos (by omega)

theorem asciiForm_of_not_isKept {c : Char} (h : isKept c = false) :
    asciiForm c = (utf16Units c).flatMap unitEscape := by
  simp only [isKept, Bool.and_eq_false_iff, decide_eq_false_iff_not] at h
  exact if_neg (by omega)

theorem asciiText_append (a b : Text) : asciiText (a ++ b) = asciiText a ++ asciiText b :=
  List.flatMap_append

theorem asciiText_cons (c : Char) (text : Text) :
    asciiText (c :: text) = asciiForm c ++ asciiText text :=
  List.flatMap_cons

theorem asciiText_singleton (c : Char) : asciiText [c] = asciiForm c :=
  List.flatMap_singleton _ _

theorem slice?_append (front part rest : Text) :
    slice? (front ++ part ++ rest) (byteSize front) (byteSize (front ++ part)) = some part := by
  have hle : byteSize front ≤ byteSize (front ++ part) := by
    rw [byteSize_append]
    exact Nat.le_add_right _ _
  rw [slice?, if_pos hle, takeBytes?_dropBytes?]

namespace Slicing

/-- What writing keeps: in front of the place that was reached, everything is written but a part
that stays as it is, and the next slice begins with this part. -/
def Reaches (s : Slicing) (front : Text) : Prop :=
  ∃ done kept, front = done ++ kept ∧ s.start = byteSize done ∧ s.written = asciiText done ∧
    asciiText kept = kept

variable {s : Slicing} {front : Text}

/-- The slice up to the place that was reached can be cut out, and completes what was written. -/
theorem Reaches.slice (h : s.Reaches front) (rest : Text) :
    ∃ slice, slice? (front ++ rest) s.start (byteSize front) = some slice ∧
      s.written ++ slice = asciiText front := by
  obtain ⟨done, kept, rfl, hstart, hwritten, hkept⟩ := h
  refine ⟨kept, ?_, ?_⟩
  · rw [hstart, slice?_append]
  · rw [hwritten, asciiText_append, hkept]

theorem Reaches.start_le (h : s.Reaches front) : s.start ≤ byteSize front := by
  obtain ⟨done, kept, rfl, hstart, -, -⟩ := h
  rw [hstart, byteSize_append]
  exact Nat.le_add_right _ _

theorem Reaches.cutsAt (h : s.Reaches front) (rest : Text) : CutsAt (front ++ rest) s.start := by
  obtain ⟨done, kept, rfl, hstart, -, -⟩ := h
  exact ⟨done, kept ++ rest, List.append_assoc _ _ _, hstart.symm⟩

theorem Reaches.step (h : s.Reaches front) (c : Char) (rest : Text) :
    ∃ next, s.step (front ++ c :: rest) (byteSize front) c = some next ∧
      next.Reaches (front ++ [c]) := by
  cases hc : isKept c with
  | true =>
      -- The character joins the part that stays as it is.
      refine ⟨s, if_pos hc, ?_⟩
      obtain ⟨done, kept, rfl, hstart, hwritten, hkept⟩ := h
      refine ⟨done, kept ++ [c], List.append_assoc _ _ _, hstart, hwritten, ?_⟩
      rw [asciiText_append, hkept, asciiText_singleton, asciiForm_of_isKept hc]
  | false =>
      -- Nothing is left in front of the next place.
      obtain ⟨slice, hslice, hwritten⟩ := h.slice (c :: rest)
      refine ⟨⟨byteSize front + c.utf8Size,
        s.written ++ slice ++ (utf16Units c).flatMap unitEscape⟩, ?_, ?_⟩
      · simp [Slicing.step, hc, hslice]
      · refine ⟨front ++ [c], [], (List.append_nil _).symm, ?_, ?_, rfl⟩
        · simp
        · rw [hwritten, asciiText_append, asciiText_singleton, asciiForm_of_not_isKept hc]

theorem Reaches.run {text : Text} (h : s.Reaches front) (rest : Text) :
    ∃ last, Slicing.run (front ++ text ++ rest) (byteSize front) text s = some last ∧
      last.Reaches (front ++ text) := by
  induction text generalizing s front with
  | nil => exact ⟨s, rfl, by rwa [List.append_nil]⟩
  | cons c text ih =>
      obtain ⟨next, hstep, hnext⟩ := h.step c (text ++ rest)
      obtain ⟨last, hrun, hlast⟩ := ih hnext
      refine ⟨last, ?_, by simpa using hlast⟩
      have hsize : byteSize front + c.utf8Size = byteSize (front ++ [c]) := by simp
      rw [List.append_assoc, List.cons_append, Slicing.run, hstep, hsize]
      simpa using hrun

/-- Writing reaches every place of a fragment. -/
theorem exists_run (front rest : Text) :
    ∃ s, Slicing.run (front ++ rest) 0 front {} = some s ∧ s.Reaches front := by
  have hstart : ({} : Slicing).Reaches [] := ⟨[], [], rfl, rfl, rfl, rfl⟩
  exact hstart.run rest

end Slicing

/-- The slices and escapes of a fragment are its characters one by one. -/
theorem writeSlices?_eq (fragment : Text) : writeSlices? fragment = some (asciiText fragment) := by
  obtain ⟨s, hrun, hs⟩ := Slicing.exists_run fragment []
  obtain ⟨slice, hslice, hwritten⟩ := hs.slice []
  rw [List.append_nil] at hrun hslice
  simp [writeSlices?, hrun, hslice, hwritten]

/-! ### Portions of a string -/

/-- A portion of a string: a fragment without the characters that every style escapes, or one of
these characters. -/
inductive Portion
  | fragment (text : Text)
  | escaped (c : Char)

namespace Portion

/-- Whether a portion is what it has to be. -/
def Allowed : Portion → Prop
  | fragment text => ∀ c ∈ text, neededEscape? c = none
  | escaped c => (neededEscape? c).isSome = true

/-- The part of the string. -/
def text : Portion → Text
  | fragment text => text
  | escaped c => [c]

/-- What is written for it. -/
def written : Portion → Text
  | fragment text => asciiText text
  | escaped c => (neededEscape? c).getD []

theorem escape_eq {portion : Portion} (h : portion.Allowed) :
    portion.text.flatMap (escapeChar .spaced) = portion.written := by
  cases portion with
  | fragment text =>
      refine List.flatMap_congr fun c hc => ?_
      rw [escapeChar, h c hc]
  | escaped c =>
      obtain ⟨escape, hescape⟩ := Option.isSome_iff_exists.mp h
      simp [text, written, escapeChar, hescape]

end Portion

/-! ### Reading a fragment back -/

/-- The UTF-16 units that a text shows: a `\u` escape shows its number, and every other character
its own units.  A backslash that does not begin such an escape shows nothing. -/
def shownUnits? : Text → Option (List Nat)
  | [] => some []
  | c :: rest =>
      if c = '\\' then
        match rest with
        | 'u' :: a :: b :: c :: d :: rest => do
            let unit ← hexUnit? (Utf8.encode [a, b, c, d])
            let units ← shownUnits? rest
            some (unit :: units)
        | _ => none
      else do
        let units ← shownUnits? rest
        some (utf16Units c ++ units)

/-- The text of UTF-16 units.  Halves of pairs have none on their own. -/
def ofUtf16? : List Nat → Option Text
  | [] => some []
  | unit :: rest =>
      if isLead unit then
        match rest with
        | trail :: rest =>
            if isTrail trail then (ofUtf16? rest).map (pairChar unit trail :: ·) else none
        | [] => none
      else if isTrail unit then none
      else (ofUtf16? rest).map (Char.ofNat unit :: ·)

/-- Undo the escapes of a fragment. -/
def unescape? (text : Text) : Option Text :=
  (shownUnits? text).bind ofUtf16?

theorem shownUnits?_cons {c : Char} (h : c ≠ '\\') (rest : Text) :
    shownUnits? (c :: rest) = (shownUnits? rest).map (utf16Units c ++ ·) := by
  rw [shownUnits?.eq_def]
  simp only [if_neg h]
  cases shownUnits? rest <;> rfl

theorem shownUnits?_digits {a b c d : Char} {unit : Nat}
    (h : hexUnit? (Utf8.encode [a, b, c, d]) = some unit) (rest : Text) :
    shownUnits? ('\\' :: 'u' :: a :: b :: c :: d :: rest) =
      (shownUnits? rest).map (unit :: ·) := by
  rw [shownUnits?.eq_def]
  simp only [if_true, h]
  cases shownUnits? rest <;> rfl

theorem shownUnits?_unitEscape {unit : Nat} (h : unit < 0x10000) (rest : Text) :
    shownUnits? (unitEscape unit ++ rest) = (shownUnits? rest).map (unit :: ·) := by
  have hhex : hexUnit? (Utf8.encode (fourDigits unit)) = some unit :=
    hexUnit?_of_hexUnit (hexUnit_fourDigits h)
  rw [unitEscape_eq h]
  exact shownUnits?_digits hhex rest

theorem shownUnits?_unitEscapes {units : List Nat} (h : ∀ unit ∈ units, unit < 0x10000)
    (rest : Text) :
    shownUnits? (units.flatMap unitEscape ++ rest) = (shownUnits? rest).map (units ++ ·) := by
  induction units with
  | nil => exact Option.map_id'.symm
  | cons unit units ih =>
      obtain ⟨hunit, hunits⟩ := List.forall_mem_cons.mp h
      rw [List.flatMap_cons, List.append_assoc, shownUnits?_unitEscape hunit, ih hunits,
        Option.map_map]
      rfl

theorem shownUnits?_asciiForm {c : Char} (h : c ≠ '\\') (rest : Text) :
    shownUnits? (asciiForm c ++ rest) = (shownUnits? rest).map (utf16Units c ++ ·) := by
  cases hc : isKept c with
  | true =>
      rw [asciiForm_of_isKept hc, List.singleton_append, shownUnits?_cons h]
  | false =>
      rw [asciiForm_of_not_isKept hc]
      exact shownUnits?_unitEscapes (fun unit hunit => lt_of_mem_utf16Units hunit) rest

theorem shownUnits?_asciiText {text : Text} (h : '\\' ∉ text) :
    shownUnits? (asciiText text) = some (text.flatMap utf16Units) := by
  induction text with
  | nil => rfl
  | cons c text ih =>
      have hc : c ≠ '\\' := (List.ne_of_not_mem_cons h).symm
      rw [asciiText_cons, shownUnits?_asciiForm hc, ih (List.not_mem_of_not_mem_cons h)]
      rfl

theorem ofUtf16?_utf16Units (c : Char) (units : List Nat) :
    ofUtf16? (utf16Units c ++ units) = (ofUtf16? units).map (c :: ·) := by
  by_cases hplane : c.toNat < 0x10000
  · have hunits : utf16Units c = [c.toNat] := if_pos hplane
    obtain ⟨hlead, htrail⟩ := not_surrogate c
    rw [hunits, List.singleton_append, ofUtf16?.eq_def]
    simp [hlead, htrail]
  · obtain ⟨lead, trail, hunits, hlead, htrail, hchar⟩ := exists_pair (Nat.le_of_not_lt hplane)
    rw [hunits, List.cons_append, List.singleton_append, ofUtf16?.eq_def]
    simp [hlead, htrail, hchar]

theorem ofUtf16?_flatMap (text : Text) : ofUtf16? (text.flatMap utf16Units) = some text := by
  induction text with
  | nil => rfl
  | cons c text ih => rw [List.flatMap_cons, ofUtf16?_utf16Units, ih, Option.map_some]

theorem unescape?_asciiText {text : Text} (h : '\\' ∉ text) :
    unescape? (asciiText text) = some text := by
  rw [unescape?, shownUnits?_asciiText h, Option.bind_some, ofUtf16?_flatMap]

/-! ### Fragments -/

/-- How a fragment is escaped.  Writing it slice by slice gets through, with every cut between two
characters and not behind the place that was reached; what was written in front of a place and the
slice up to it are what is written for the part in front.  Two fragments are written one after the
other, and a string comes out the same however it is cut into portions.  Characters in ASCII but
U+007F are written in their places as they are.  Without a backslash the fragment can be read back,
and no other one is written like it. -/
structure FragmentEscaping (fragment : Text) : Prop where
  written : writeSlices? fragment = some (asciiText fragment)
  start : ∀ front rest, fragment = front ++ rest →
    ∃ s slice, Slicing.run fragment 0 front {} = some s ∧ s.start ≤ byteSize front ∧
      CutsAt fragment s.start ∧ slice? fragment s.start (byteSize front) = some slice ∧
        s.written ++ slice = asciiText front
  append : ∀ a b, fragment = a ++ b → ∃ front rest, writeSlices? a = some front ∧
    writeSlices? b = some rest ∧ writeSlices? fragment = some (front ++ rest)
  portions : ∀ portions : List Portion, (∀ portion ∈ portions, portion.Allowed) →
    fragment = portions.flatMap Portion.text →
      renderString .spaced fragment = '"' :: portions.flatMap Portion.written ++ ['"']
  kept : ∀ front c rest, fragment = front ++ c :: rest → isKept c = true →
    asciiText fragment = asciiText front ++ c :: asciiText rest
  readBack : '\\' ∉ fragment → unescape? (asciiText fragment) = some fragment
  distinct : ∀ other, '\\' ∉ fragment → '\\' ∉ other → asciiText fragment = asciiText other →
    fragment = other

theorem asciiText_escaping (fragment : Text) : FragmentEscaping fragment := by
  constructor
  case written => exact writeSlices?_eq fragment
  case start =>
    rintro front rest rfl
    obtain ⟨s, hrun, hs⟩ := Slicing.exists_run front rest
    obtain ⟨slice, hslice, hwritten⟩ := hs.slice rest
    exact ⟨s, slice, hrun, hs.start_le, hs.cutsAt rest, hslice, hwritten⟩
  case append =>
    rintro a b rfl
    refine ⟨asciiText a, asciiText b, writeSlices?_eq a, writeSlices?_eq b, ?_⟩
    rw [writeSlices?_eq, asciiText_append]
  case portions =>
    rintro portions hallowed rfl
    rw [renderString, List.flatMap_assoc]
    have hwritten : portions.flatMap (fun portion => portion.text.flatMap (escapeChar .spaced)) =
        portions.flatMap Portion.written :=
      List.flatMap_congr fun portion hportion => Portion.escape_eq (hallowed portion hportion)
    rw [hwritten]
  case kept =>
    rintro front c rest rfl hc
    rw [asciiText_append, asciiText_cons, asciiForm_of_isKept hc, List.singleton_append]
  case readBack => exact unescape?_asciiText
  case distinct =>
    intro other hfragment hother heq
    have hread := unescape?_asciiText hfragment
    rw [heq, unescape?_asciiText hother] at hread
    exact (Option.some.inj hread).symm

/-- A fragment with a backslash may be written like another one. -/
example : asciiText "\\u00e9".toList = asciiText ['é'] := by decide

end QueryLabel.Json
