import QueryLabel.Proofs.Json.Grammar
import QueryLabel.Proofs.Text.Utf8

/-!
The scanner of numbers against the grammar.  It takes every number of the grammar to its end
(`scan?_of_spells`), and where it may end it has taken one (`spells_of_scan?`).
-/

namespace QueryLabel.Json

open Text (ascii)

theorem ne_of_isDigit {b c : UInt8} (hb : isDigit b = true) (hc : isDigit c = false) : b ≠ c := by
  rintro rfl
  rw [hb] at hc
  cases hc

/-- The characters of a row of ASCII bytes. -/
abbrev chars (s : List UInt8) : Text :=
  s.map byteChar

theorem WholePart.ne_nil {s : List UInt8} (h : WholePart s) : s ≠ [] := by
  cases h <;> simp

namespace NumberScan

/-- Go through bytes that all belong to the literal. -/
def run? (scan : NumberScan) : List UInt8 → Option NumberScan
  | [] => some scan
  | b :: rest =>
      match scan.step b with
      | .more next => next.run? rest
      | .ended | .refused | .refusedTaken => none

/-- Go through bytes that begin a literal. -/
def scan? : List UInt8 → Option NumberScan
  | [] => none
  | b :: rest => (start? b).bind fun scan => scan.run? rest

theorem run?_cons {scan next : NumberScan} {b : UInt8} (h : scan.step b = .more next)
    (s : List UInt8) : scan.run? (b :: s) = next.run? s := by
  simp [run?, h]

theorem run?_append (scan : NumberScan) (s r : List UInt8) :
    scan.run? (s ++ r) = (scan.run? s).bind fun next => next.run? r := by
  induction s generalizing scan with
  | nil => rfl
  | cons b s ih =>
      simp only [List.cons_append, run?]
      split
      · exact ih _
      all_goals rfl

theorem scan?_append {s : List UInt8} (hs : s ≠ []) (r : List UInt8) :
    scan? (s ++ r) = (scan? s).bind fun next => next.run? r := by
  cases s with
  | nil => contradiction
  | cons b s =>
      simp only [List.cons_append, scan?]
      cases start? b with
      | none => rfl
      | some scan => exact run?_append scan s r

/-- In the middle of digits, digits are taken. -/
theorem run?_digits {stage : NumberStage}
    (hstage : stage = .whole ∨ stage = .fraction ∨ stage = .power) (written : Text)
    {s : List UInt8} (hs : ∀ b ∈ s, isDigit b) :
    run? ⟨stage, written⟩ s = some ⟨stage, (chars s).reverse ++ written⟩ := by
  induction s generalizing written with
  | nil => rfl
  | cons b s ih =>
      simp only [List.forall_mem_cons] at hs
      have hstep : step ⟨stage, written⟩ b = .more ⟨stage, byteChar b :: written⟩ := by
        rcases hstage with rfl | rfl | rfl <;> simp [step, push, hs.1]
      rw [run?_cons hstep, ih _ hs.2]
      simp

/-- The whole part of a number, with its sign, is taken from the beginning on. -/
theorem scan?_whole {sign whole : List UInt8} (hsign : sign = [] ∨ sign = [ascii '-'])
    (hwhole : WholePart whole) :
    ∃ stage, (stage = .zero ∨ stage = .whole) ∧
      scan? (sign ++ whole) = some ⟨stage, (chars (sign ++ whole)).reverse⟩ := by
  rcases hsign with rfl | rfl
  · cases hwhole with
    | zero => exact ⟨.zero, Or.inl rfl, rfl⟩
    | @digits d s hd hzero hs =>
        refine ⟨.whole, Or.inr rfl, ?_⟩
        have hminus : d ≠ ascii '-' := ne_of_isDigit hd (by decide)
        simp only [List.nil_append, scan?, start?, hminus, hzero, hd, ↓reduceIte,
          Option.bind_some, run?_digits (Or.inl rfl) _ hs]
        simp
  · cases hwhole with
    | zero => exact ⟨.zero, Or.inl rfl, rfl⟩
    | @digits d s hd hzero hs =>
        refine ⟨.whole, Or.inr rfl, ?_⟩
        have hstep : step ⟨.minus, ['-']⟩ d = .more ⟨.whole, [byteChar d, '-']⟩ := by
          simp [step, push, hzero, hd]
        simp only [List.cons_append, List.nil_append, scan?, start?, ↓reduceIte,
          Option.bind_some, run?_cons hstep, run?_digits (Or.inl rfl) _ hs]
        simp [byteChar, ascii]

/-- The fraction is taken behind the whole part. -/
theorem run?_fraction {stage : NumberStage} (hstage : stage = .zero ∨ stage = .whole)
    (written : Text) {s : List UInt8} (hs : FractionPart s) :
    ∃ stage', (stage' = .zero ∨ stage' = .whole ∨ stage' = .fraction) ∧
      run? ⟨stage, written⟩ s = some ⟨stage', (chars s).reverse ++ written⟩ := by
  cases hs with
  | none =>
      refine ⟨stage, ?_, rfl⟩
      rcases hstage with rfl | rfl
      · exact Or.inl rfl
      · exact Or.inr (Or.inl rfl)
  | @point s hs =>
      obtain ⟨hne, hall⟩ := hs
      cases s with
      | nil => contradiction
      | cons d s =>
          simp only [List.forall_mem_cons] at hall
          have hpoint : step ⟨stage, written⟩ (ascii '.') =
              .more ⟨.point, byteChar (ascii '.') :: written⟩ := by
            rcases hstage with rfl | rfl <;>
              simp [step, stepPoint, push, show isDigit (ascii '.') = false by decide]
          have hdigit : step ⟨.point, byteChar (ascii '.') :: written⟩ d =
              .more ⟨.fraction, byteChar d :: byteChar (ascii '.') :: written⟩ := by
            simp [step, push, hall.1]
          refine ⟨.fraction, Or.inr (Or.inr rfl), ?_⟩
          rw [run?_cons hpoint, run?_cons hdigit, run?_digits (Or.inr (Or.inl rfl)) _ hall.2]
          simp

/-- The exponent is taken behind complete digits, and written in its normal form. -/
theorem run?_exponent {stage : NumberStage}
    (hstage : stage = .zero ∨ stage = .whole ∨ stage = .fraction) (written : Text)
    {s : List UInt8} {power : Text} (hs : ExponentPart s power) :
    ∃ last, mayEnd ⟨last, power.reverse ++ written⟩ = true ∧
      run? ⟨stage, written⟩ s = some ⟨last, power.reverse ++ written⟩ := by
  have hmark : ∀ {mark : UInt8}, mark = ascii 'e' ∨ mark = ascii 'E' →
      step ⟨stage, written⟩ mark = .more ⟨.mark, 'e' :: written⟩ := by
    intro mark hmark
    have hdigit : isDigit mark = false := by rcases hmark with rfl | rfl <;> decide
    have hpoint : mark ≠ ascii '.' := by rcases hmark with rfl | rfl <;> decide
    rcases hstage with rfl | rfl | rfl <;>
      simp [step, stepPoint, stepMark, hdigit, hpoint, hmark]
  cases hs with
  | none =>
      refine ⟨stage, ?_, rfl⟩
      rcases hstage with rfl | rfl | rfl <;> rfl
  | @unsigned mark s he hs =>
      obtain ⟨hne, hall⟩ := hs
      cases s with
      | nil => contradiction
      | cons d s =>
          simp only [List.forall_mem_cons] at hall
          have hplus : d ≠ ascii '+' := ne_of_isDigit hall.1 (by decide)
          have hminus : d ≠ ascii '-' := ne_of_isDigit hall.1 (by decide)
          have hdigit : step ⟨.mark, 'e' :: written⟩ d =
              .more ⟨.power, byteChar d :: '+' :: 'e' :: written⟩ := by
            simp [step, hplus, hminus, hall.1]
          refine ⟨.power, rfl, ?_⟩
          rw [run?_cons (hmark he), run?_cons hdigit,
            run?_digits (Or.inr (Or.inr rfl)) _ hall.2]
          simp
  | @signed mark sign s he hsign hs =>
      obtain ⟨hne, hall⟩ := hs
      cases s with
      | nil => contradiction
      | cons d s =>
          simp only [List.forall_mem_cons] at hall
          have hsigned : step ⟨.mark, 'e' :: written⟩ sign =
              .more ⟨.sign, byteChar sign :: 'e' :: written⟩ := by
            simp [step, push, hsign]
          have hdigit : step ⟨.sign, byteChar sign :: 'e' :: written⟩ d =
              .more ⟨.power, byteChar d :: byteChar sign :: 'e' :: written⟩ := by
            simp [step, push, hall.1]
          refine ⟨.power, rfl, ?_⟩
          rw [run?_cons (hmark he), run?_cons hsigned, run?_cons hdigit,
            run?_digits (Or.inr (Or.inr rfl)) _ hall.2]
          simp

/-- A number of the grammar is taken as a whole, and its literal is the normal form. -/
theorem scan?_of_spells {s : List UInt8} {literal : Text} (h : SpellsNumber s literal) :
    ∃ scan, scan? s = some scan ∧ scan.mayEnd = true ∧ scan.literal = literal := by
  obtain @⟨sign, whole, fraction, exponent, power, hsign, hwhole, hfraction, hexponent⟩ := h
  obtain ⟨stage, hstage, hrun⟩ := scan?_whole hsign hwhole
  obtain ⟨stage', hstage', hrun'⟩ :=
    run?_fraction hstage (chars (sign ++ whole)).reverse hfraction
  obtain ⟨last, hend, hrun''⟩ :=
    run?_exponent hstage' ((chars fraction).reverse ++ (chars (sign ++ whole)).reverse) hexponent
  have hne : sign ++ whole ≠ [] := List.append_ne_nil_of_right_ne_nil _ hwhole.ne_nil
  have hne' : sign ++ whole ++ fraction ≠ [] := List.append_ne_nil_of_left_ne_nil hne _
  refine ⟨_, ?_, hend, ?_⟩
  · rw [scan?_append hne', scan?_append hne, hrun]
    simp only [Option.bind_some, hrun', hrun'']
  · simp [literal]

/-! Where the scanner may end, what it has gone through since a stage is what the grammar wants
behind that stage. -/

theorem run?_cons_eq_some {scan last : NumberScan} {b : UInt8} {s : List UInt8}
    (h : scan.run? (b :: s) = some last) :
    ∃ next, scan.step b = .more next ∧ next.run? s = some last := by
  unfold run? at h
  split at h
  · next next hstep => exact ⟨next, hstep, h⟩
  all_goals contradiction

theorem digits_of_run?_power {written : Text} {s : List UInt8} {last : NumberScan}
    (h : run? ⟨.power, written⟩ s = some last) :
    (∀ b ∈ s, isDigit b) ∧ last.written = (chars s).reverse ++ written := by
  induction s generalizing written with
  | nil =>
      cases h
      simp
  | cons b s ih =>
      obtain ⟨next, hstep, hrun⟩ := run?_cons_eq_some h
      by_cases hb : isDigit b
      · simp only [step, hb, ↓reduceIte, push, Step.more.injEq] at hstep
        subst hstep
        obtain ⟨hs, hwritten⟩ := ih hrun
        exact ⟨List.forall_mem_cons.mpr ⟨hb, hs⟩, by simp [hwritten]⟩
      · simp [step, hb] at hstep

theorem digits_of_run?_sign {written : Text} {s : List UInt8} {last : NumberScan}
    (h : run? ⟨.sign, written⟩ s = some last) (hend : last.mayEnd = true) :
    Digits s ∧ last.written = (chars s).reverse ++ written := by
  cases s with
  | nil =>
      cases h
      cases hend
  | cons b s =>
      obtain ⟨next, hstep, hrun⟩ := run?_cons_eq_some h
      by_cases hb : isDigit b
      · simp only [step, hb, ↓reduceIte, push, Step.more.injEq] at hstep
        subst hstep
        obtain ⟨hs, hwritten⟩ := digits_of_run?_power hrun
        exact ⟨⟨by simp, List.forall_mem_cons.mpr ⟨hb, hs⟩⟩, by simp [hwritten]⟩
      · simp [step, hb] at hstep

theorem exponent_of_run?_mark {written : Text} {s : List UInt8} {last : NumberScan}
    (h : run? ⟨.mark, written⟩ s = some last) (hend : last.mayEnd = true) {mark : UInt8}
    (hmark : mark = ascii 'e' ∨ mark = ascii 'E') :
    ∃ power, ExponentPart (mark :: s) ('e' :: power) ∧
      last.written = power.reverse ++ written := by
  cases s with
  | nil =>
      cases h
      cases hend
  | cons b s =>
      obtain ⟨next, hstep, hrun⟩ := run?_cons_eq_some h
      by_cases hsign : b = ascii '+' ∨ b = ascii '-'
      · simp only [step, hsign, ↓reduceIte, push, Step.more.injEq] at hstep
        subst hstep
        obtain ⟨hs, hwritten⟩ := digits_of_run?_sign hrun hend
        exact ⟨_, .signed hmark hsign hs, by simp [hwritten]⟩
      · by_cases hb : isDigit b
        · simp only [step, hsign, hb, ↓reduceIte, Step.more.injEq] at hstep
          subst hstep
          obtain ⟨hs, hwritten⟩ := digits_of_run?_power hrun
          have hdigits : Digits (b :: s) := ⟨by simp, List.forall_mem_cons.mpr ⟨hb, hs⟩⟩
          exact ⟨_, .unsigned hmark hdigits, by simp [hwritten]⟩
        · simp [step, hsign, hb] at hstep

/-- Behind complete digits the exponent mark may follow, and nothing else does. -/
theorem exponent_of_stepMark {written : Text} {b : UInt8} {s : List UInt8}
    {stage : NumberStage} {next last : NumberScan}
    (hstep : stepMark ⟨stage, written⟩ b = .more next) (hrun : next.run? s = some last)
    (hend : last.mayEnd = true) :
    ∃ power, ExponentPart (b :: s) power ∧ last.written = power.reverse ++ written := by
  unfold stepMark at hstep
  split at hstep
  · next hmark =>
      cases hstep
      obtain ⟨power, hpower, hwritten⟩ := exponent_of_run?_mark hrun hend hmark
      exact ⟨_, hpower, by simp [hwritten]⟩
  · contradiction

theorem tail_of_run?_fraction {written : Text} {s : List UInt8} {last : NumberScan}
    (h : run? ⟨.fraction, written⟩ s = some last) (hend : last.mayEnd = true) :
    ∃ digits exponent power, s = digits ++ exponent ∧ (∀ b ∈ digits, isDigit b) ∧
      ExponentPart exponent power ∧
      last.written = power.reverse ++ (chars digits).reverse ++ written := by
  induction s generalizing written with
  | nil =>
      cases h
      exact ⟨[], [], [], rfl, by simp, .none, rfl⟩
  | cons b s ih =>
      obtain ⟨next, hstep, hrun⟩ := run?_cons_eq_some h
      by_cases hb : isDigit b
      · simp only [step, hb, ↓reduceIte, push, Step.more.injEq] at hstep
        subst hstep
        obtain ⟨digits, exponent, power, rfl, hdigits, hpower, hwritten⟩ := ih hrun
        exact ⟨b :: digits, exponent, power, rfl, List.forall_mem_cons.mpr ⟨hb, hdigits⟩,
          hpower, by simp [hwritten]⟩
      · simp only [step, hb, Bool.false_eq_true, ↓reduceIte] at hstep
        obtain ⟨power, hpower, hwritten⟩ := exponent_of_stepMark hstep hrun hend
        exact ⟨[], b :: s, power, rfl, by simp, hpower, by simp [hwritten]⟩

/-- A fraction and an exponent, each of which may be missing, and what is written for them. -/
def NumberTail (s : List UInt8) (written : Text) : Prop :=
  ∃ fraction exponent power, s = fraction ++ exponent ∧ FractionPart fraction ∧
    ExponentPart exponent power ∧ written = chars fraction ++ power

theorem NumberTail.nil : NumberTail [] [] :=
  ⟨[], [], [], rfl, .none, .none, rfl⟩

theorem NumberTail.spells {sign whole s : List UInt8} {written : Text} (h : NumberTail s written)
    (hsign : sign = [] ∨ sign = [ascii '-']) (hwhole : WholePart whole) :
    SpellsNumber (sign ++ whole ++ s) (chars (sign ++ whole) ++ written) := by
  obtain ⟨fraction, exponent, power, rfl, hfraction, hpower, rfl⟩ := h
  have hnumber := SpellsNumber.mk hsign hwhole hfraction hpower
  simpa using hnumber

theorem tail_of_stepPoint {written : Text} {b : UInt8} {s : List UInt8}
    {stage : NumberStage} {next last : NumberScan}
    (hstep : stepPoint ⟨stage, written⟩ b = .more next) (hrun : next.run? s = some last)
    (hend : last.mayEnd = true) :
    ∃ tail, NumberTail (b :: s) tail ∧ last.written = tail.reverse ++ written := by
  unfold stepPoint at hstep
  split at hstep
  · next hpoint =>
      subst hpoint
      simp only [push, Step.more.injEq] at hstep
      subst hstep
      cases s with
      | nil =>
          cases hrun
          cases hend
      | cons d s =>
          obtain ⟨next, hstep, hrun⟩ := run?_cons_eq_some hrun
          by_cases hd : isDigit d
          · simp only [step, hd, ↓reduceIte, push, Step.more.injEq] at hstep
            subst hstep
            obtain ⟨digits, exponent, power, rfl, hdigits, hpower, hwritten⟩ :=
              tail_of_run?_fraction hrun hend
            have hfraction : Digits (d :: digits) :=
              ⟨by simp, List.forall_mem_cons.mpr ⟨hd, hdigits⟩⟩
            exact ⟨_, ⟨_, exponent, power, rfl, .point hfraction, hpower, rfl⟩,
              by simp [hwritten]⟩
          · simp [step, hd] at hstep
  · obtain ⟨power, hpower, hwritten⟩ := exponent_of_stepMark hstep hrun hend
    exact ⟨_, ⟨[], b :: s, power, rfl, .none, hpower, rfl⟩, by simp [hwritten]⟩

theorem tail_of_run?_zero {written : Text} {s : List UInt8} {last : NumberScan}
    (h : run? ⟨.zero, written⟩ s = some last) (hend : last.mayEnd = true) :
    ∃ tail, NumberTail s tail ∧ last.written = tail.reverse ++ written := by
  cases s with
  | nil =>
      cases h
      exact ⟨[], .nil, rfl⟩
  | cons b s =>
      obtain ⟨next, hstep, hrun⟩ := run?_cons_eq_some h
      by_cases hb : isDigit b
      · simp [step, hb] at hstep
      · simp only [step, hb, Bool.false_eq_true, ↓reduceIte] at hstep
        exact tail_of_stepPoint hstep hrun hend

theorem tail_of_run?_whole {written : Text} {s : List UInt8} {last : NumberScan}
    (h : run? ⟨.whole, written⟩ s = some last) (hend : last.mayEnd = true) :
    ∃ digits rest tail, s = digits ++ rest ∧ (∀ b ∈ digits, isDigit b) ∧
      NumberTail rest tail ∧
      last.written = tail.reverse ++ ((chars digits).reverse ++ written) := by
  induction s generalizing written with
  | nil =>
      cases h
      exact ⟨[], [], [], rfl, by simp, .nil, rfl⟩
  | cons b s ih =>
      obtain ⟨next, hstep, hrun⟩ := run?_cons_eq_some h
      by_cases hb : isDigit b
      · simp only [step, hb, ↓reduceIte, push, Step.more.injEq] at hstep
        subst hstep
        obtain ⟨digits, rest, tail, rfl, hdigits, htail, hwritten⟩ := ih hrun
        exact ⟨b :: digits, rest, tail, rfl, List.forall_mem_cons.mpr ⟨hb, hdigits⟩, htail,
          by simp [hwritten]⟩
      · simp only [step, hb, Bool.false_eq_true, ↓reduceIte] at hstep
        obtain ⟨tail, htail, hwritten⟩ := tail_of_stepPoint hstep hrun hend
        exact ⟨[], b :: s, tail, rfl, by simp, htail, by simpa using hwritten⟩

theorem isDigit_zero : isDigit (ascii '0') = true := by
  decide

/-- Behind a first digit, which may have a sign in front, a number of the grammar was taken. -/
theorem spells_of_run?_digit {sign s : List UInt8} {d : UInt8} {last : NumberScan}
    (hsign : sign = [] ∨ sign = [ascii '-']) (hd : isDigit d)
    (h : run? ⟨if d = ascii '0' then .zero else .whole, (chars (sign ++ [d])).reverse⟩ s =
      some last) (hend : last.mayEnd = true) :
    SpellsNumber (sign ++ d :: s) last.literal := by
  by_cases hzero : d = ascii '0'
  · subst hzero
    obtain ⟨tail, htail, hwritten⟩ := tail_of_run?_zero h hend
    have hnumber := htail.spells hsign .zero
    simpa [literal, hwritten] using hnumber
  · rw [if_neg hzero] at h
    obtain ⟨digits, rest, tail, rfl, hdigits, htail, hwritten⟩ := tail_of_run?_whole h hend
    have hnumber := htail.spells hsign (.digits hd hzero hdigits)
    simpa [literal, hwritten] using hnumber

theorem step_minus_eq_more {written : Text} {d : UInt8} {next : NumberScan}
    (h : step ⟨.minus, written⟩ d = .more next) :
    isDigit d ∧ next = ⟨if d = ascii '0' then .zero else .whole, byteChar d :: written⟩ := by
  by_cases hzero : d = ascii '0'
  · subst hzero
    cases h
    exact ⟨isDigit_zero, rfl⟩
  · by_cases hd : isDigit d
    · simp only [step, hzero, hd, ↓reduceIte, push, Step.more.injEq] at h
      exact ⟨hd, by simp [hzero, h]⟩
    · simp [step, hzero, hd] at h

theorem start?_eq_some {b : UInt8} {scan : NumberScan} (h : start? b = some scan) :
    (b = ascii '-' ∧ scan = ⟨.minus, ['-']⟩) ∨
      (isDigit b ∧ scan = ⟨if b = ascii '0' then .zero else .whole, [byteChar b]⟩) := by
  unfold start? at h
  split at h
  · next hminus => exact Or.inl ⟨hminus, (Option.some.inj h).symm⟩
  · split at h
    · next hzero =>
        subst hzero
        exact Or.inr ⟨isDigit_zero, (Option.some.inj h).symm⟩
    · next hzero =>
        split at h
        · next hb => exact Or.inr ⟨hb, by rw [if_neg hzero, Option.some.inj h]⟩
        · contradiction

/-- Where the scanner may end, it has gone through a number of the grammar. -/
theorem spells_of_scan? {s : List UInt8} {last : NumberScan} (h : scan? s = some last)
    (hend : last.mayEnd = true) : SpellsNumber s last.literal := by
  cases s with
  | nil => cases h
  | cons b s =>
      obtain ⟨scan, hstart, hrun⟩ := Option.bind_eq_some_iff.mp h
      rcases start?_eq_some hstart with ⟨rfl, rfl⟩ | ⟨hb, rfl⟩
      · cases s with
        | nil =>
            cases hrun
            cases hend
        | cons d s =>
            obtain ⟨next, hstep, hrun⟩ := run?_cons_eq_some hrun
            obtain ⟨hd, rfl⟩ := step_minus_eq_more hstep
            exact spells_of_run?_digit (Or.inr rfl) hd hrun hend
      · exact spells_of_run?_digit (Or.inl rfl) hb hrun hend

/-- A byte that cannot go on with a number. -/
def EndsNumber (b : UInt8) : Prop :=
  isDigit b = false ∧ b ≠ ascii '.' ∧ b ≠ ascii 'e' ∧ b ≠ ascii 'E'

theorem step_of_endsNumber {scan : NumberScan} {b : UInt8} (hend : scan.mayEnd = true)
    (hb : EndsNumber b) : scan.step b = .ended := by
  obtain ⟨hdigit, hpoint, hsmall, hlarge⟩ := hb
  obtain ⟨stage, written⟩ := scan
  cases stage <;> simp_all [mayEnd, step, stepPoint, stepMark]

theorem mayEnd_of_step_ended {scan : NumberScan} {b : UInt8} (h : scan.step b = .ended) :
    scan.mayEnd = true := by
  obtain ⟨stage, written⟩ := scan
  cases stage with
  | zero | whole | fraction | power => rfl
  | minus | point | mark | sign =>
      simp only [step] at h
      repeat' split at h
      all_goals contradiction

theorem run?_of_read {scan : NumberScan} {s : List UInt8} {literal : Text}
    (h : scan.read s = .complete literal []) :
    ∃ last, scan.run? s = some last ∧ last.mayEnd = true ∧ last.literal = literal := by
  induction s generalizing scan with
  | nil =>
      unfold read at h
      split at h
      · next hend => exact ⟨scan, rfl, hend, (NumberReading.complete.inj h).1⟩
      · contradiction
  | cons b s ih =>
      unfold read at h
      split at h
      · next next hstep =>
          obtain ⟨last, hrun, hlast⟩ := ih h
          exact ⟨last, by rw [run?_cons hstep, hrun], hlast⟩
      all_goals simp at h

end NumberScan

/-- What is read from a text as a number is spelled by it. -/
theorem spells_of_readNumeral {text literal : Text} (h : readNumeral text = .ok literal) :
    SpellsNumber (Utf8.encode text) literal := by
  unfold readNumeral at h
  simp only at h
  split at h
  · contradiction
  · next b rest hbytes =>
      split at h
      · contradiction
      · next scan hstart =>
          split at h
          · next hread =>
              cases h
              obtain ⟨last, hrun, hend, rfl⟩ := NumberScan.run?_of_read hread
              rw [hbytes]
              apply NumberScan.spells_of_scan? _ hend
              simp [NumberScan.scan?, hstart, hrun]
          all_goals contradiction

end QueryLabel.Json
