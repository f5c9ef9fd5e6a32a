/-!
Places in a text of bytes, as a reader counts them: lines from one, and columns as the number of
bytes since the line began.
-/

namespace QueryLabel

/-- A line, counted from one, and the number of bytes before the place on that line. -/
structure Position where
  line : Nat
  column : Nat
deriving Repr, DecidableEq

namespace Position

/-- The beginning of a text. -/
def start : Position := ⟨1, 0⟩

/-- The place one byte further on: a line feed begins a new line. -/
def advance (p : Position) (b : UInt8) : Position :=
  if b = 0x0A then ⟨p.line + 1, 0⟩ else ⟨p.line, p.column + 1⟩

/-- The place just after the bytes that were read. -/
def after (read : List UInt8) : Position :=
  read.foldl advance start

@[simp] theorem after_nil : after [] = start := rfl

theorem after_append_singleton (read : List UInt8) (b : UInt8) :
    after (read ++ [b]) = (after read).advance b := by
  simp [after]

end Position

end QueryLabel
