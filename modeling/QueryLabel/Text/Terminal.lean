import QueryLabel.Text.Utf8

/-!
What a terminal shows of a text: its controls are left out, unless they are white space, and so
are the sequences that controls begin.  A text without controls is shown as it is.
-/

namespace QueryLabel.Text.Terminal

/-- What a terminal is in the middle of: plain text; a sequence behind an escape character, or its
part behind spaces and signs; a control sequence; the head of a device control string, behind its
parameters, or behind spaces and signs; a string that is not shown; or a command to the system. -/
inductive Mode
  | plain
  | escape
  | escapeMore
  | control
  | device
  | deviceParameter
  | deviceMore
  | string
  | command
deriving Repr, DecidableEq

/-- The controls of ASCII that are white space. -/
def isLayout (c : Char) : Bool :=
  c = '\t' || c = '\n' || c = '\x0c' || c = '\r'

/-- Characters that are no controls of ASCII. -/
def isGraphic (c : Char) : Bool :=
  0x20 ≤ c.toNat && c ≠ '\x7f'

namespace Mode

/-- Whether controls do what they stand for, rather than belong to a string. -/
def obeys : Mode → Bool
  | plain | escape | escapeMore | control => true
  | device | deviceParameter | deviceMore | string | command => false

/-- What a character behind an escape character begins. -/
def ofEscape (c : Char) : Mode :=
  if c.toNat < 0x30 then .escapeMore
  else
    match c with
    | '[' => .control
    | ']' => .command
    | 'P' => .device
    | 'X' | '^' | '_' => .string
    | _ => .plain

/-- What follows on a graphic character of ASCII. -/
def afterGraphic (mode : Mode) (c : Char) : Mode :=
  match mode with
  | .plain => .plain
  | .escape => ofEscape c
  | .escapeMore => if c.toNat < 0x30 then .escapeMore else .plain
  | .control => if c.toNat < 0x40 then .control else .plain
  | .device =>
      if c.toNat < 0x30 then .deviceMore
      else if c.toNat < 0x40 then .deviceParameter
      else .string
  | .deviceParameter =>
      if c.toNat < 0x30 then .deviceMore
      else if c.toNat < 0x3C then .deviceParameter
      else .string
  | .deviceMore => if c.toNat < 0x30 then .deviceMore else .string
  | .string => .string
  | .command => .command

/-- What follows on a character that is not shown.  Beyond ASCII only the byte that ends a string
counts, wherever it stands in a character. -/
def next (mode : Mode) (c : Char) : Mode :=
  if c = '\x1b' then .escape
  else if c = '\x18' ∨ c = '\x1a' then .plain
  else if c = '\x07' then if mode = .command then .plain else mode
  else if !isGraphic c then mode
  else if c.toNat < 0x80 then mode.afterGraphic c
  else if mode = .string ∧ (Utf8.encodeChar c).contains 0x9C then .plain
  else mode

end Mode

/-- The state of a terminal: what it is in the middle of, and whether it showed the last
character. -/
structure State where
  mode : Mode := .plain
  showing : Bool := false
deriving Repr, DecidableEq

namespace State

/-- Whether a character is shown.  White space among the controls is shown inside of sequences too,
and then also what follows, up to the next character that cannot be shown. -/
def shows (state : State) (c : Char) : Bool :=
  if isGraphic c then state.showing || state.mode = .plain
  else isLayout c && state.mode.obeys

/-- Read a character.  One that is shown does not go on with a sequence, and ends it if it is not
ASCII. -/
def step (state : State) (c : Char) : State :=
  if state.shows c then ⟨if c.toNat < 0x80 then state.mode else .plain, true⟩
  else ⟨state.mode.next c, false⟩

/-- The characters that are shown. -/
def shown : State → Text → Text
  | _, [] => []
  | state, c :: rest =>
      if state.shows c then c :: (state.step c).shown rest else (state.step c).shown rest

end State

/-- What is shown of a text. -/
def visible (text : Text) : Text :=
  ({} : State).shown text

theorem shown_of_plain (text : Text) (h : ∀ c ∈ text, isGraphic c = true) (state : State)
    (hs : state.mode = .plain) : state.shown text = text := by
  induction text generalizing state with
  | nil => rfl
  | cons c rest ih =>
      have hc : state.shows c = true := by
        simp [State.shows, h c (List.mem_cons_self ..), hs]
      have hm : (state.step c).mode = .plain := by
        simp only [State.step, hc, if_true]
        split
        · exact hs
        · rfl
      rw [State.shown, if_pos hc, ih (fun d hd => h d (List.mem_cons_of_mem _ hd)) _ hm]

/-- A text without controls is shown as it is. -/
theorem visible_eq_self (text : Text) (h : ∀ c ∈ text, isGraphic c = true) :
    visible text = text :=
  shown_of_plain text h {} rfl

example : visible "a\x1b[31mb\x07\x7fc".toList = "abc".toList := by decide
example : visible "\x1b]0;t\x07x\x0c".toList = "x\x0c".toList := by decide

end QueryLabel.Text.Terminal
