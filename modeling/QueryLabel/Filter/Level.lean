import QueryLabel.Text.Basic

/-!
Levels of log events, and how directives name them.
-/

namespace QueryLabel.Filter

/-- How much is let through, from nothing to everything. -/
inductive Level
  | off
  | error
  | warn
  | info
  | debug
  | trace
deriving Repr, DecidableEq

namespace Level

/-- The number of a level; a higher one lets more through. -/
def rank : Level → Nat
  | off => 0
  | error => 1
  | warn => 2
  | info => 3
  | debug => 4
  | trace => 5

/-- The level with this number. -/
def ofRank? : Nat → Option Level
  | 0 => some .off
  | 1 => some .error
  | 2 => some .warn
  | 3 => some .info
  | 4 => some .debug
  | 5 => some .trace
  | _ => none

/-- The name of a level, in small letters. -/
def name : Level → String
  | off => "off"
  | error => "error"
  | warn => "warn"
  | info => "info"
  | debug => "debug"
  | trace => "trace"

/-- The name of a level in front of an event. -/
def tag : Level → String
  | off => "OFF"
  | error => "ERROR"
  | warn => "WARN"
  | info => "INFO"
  | debug => "DEBUG"
  | trace => "TRACE"

/-- All levels, quietest first. -/
def all : List Level := [off, error, warn, info, debug, trace]

/-- A directive at this level lets events of another level through. -/
def allows (limit event : Level) : Bool :=
  event.rank ≤ limit.rank

/-- The louder of two levels. -/
def max (a b : Level) : Level :=
  if a.rank < b.rank then b else a

/-- A row of digits with a value that a machine word holds, perhaps behind a plus sign. -/
def readWord? (text : Text) : Option Nat :=
  let digits := match text with
    | '+' :: rest => rest
    | text => text
  if digits ≠ [] ∧ digits.all Char.isDigit then
    let n := Text.readDecimal digits
    if n < 0x10000000000000000 then some n else none
  else none

/-- The level that a text names: by its number, or by its name in letters of any case. -/
def parse? (text : Text) : Option Level :=
  match (readWord? text).bind ofRank? with
  | some level => some level
  | none => all.find? fun level => Text.lowerAscii text = level.name.toList

theorem ofRank?_rank (level : Level) : ofRank? level.rank = some level := by
  cases level <;> rfl

theorem parse?_name (level : Level) : parse? level.name.toList = some level := by
  cases level <;> decide

end Level

end QueryLabel.Filter
