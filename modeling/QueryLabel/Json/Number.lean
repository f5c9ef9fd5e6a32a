import QueryLabel.Json.SyntaxError
import QueryLabel.Text.Utf8

/-!
Number literals.  A scanner goes through a literal byte by byte; it tells a literal that may end
from one that may not, and keeps the literal in its normal form: a small `e`, and a sign in front
of every exponent.
-/

namespace QueryLabel.Json

open Text (ascii)

/-- Whether a byte is a digit. -/
def isDigit (b : UInt8) : Bool :=
  ascii '0' ≤ b && b ≤ ascii '9'

/-- The character that an ASCII byte spells. -/
def byteChar (b : UInt8) : Char :=
  Char.ofNat b.toNat

/-- How far a number literal has come: the last thing read is its minus sign, a leading zero,
digits of the whole part, the point, digits of the fraction, the exponent mark, the sign of the
exponent, or digits of the exponent. -/
inductive NumberStage
  | minus
  | zero
  | whole
  | point
  | fraction
  | mark
  | sign
  | power
deriving Repr, DecidableEq

/-- A number literal as far as it was read, last character first. -/
structure NumberScan where
  stage : NumberStage
  written : Text
deriving Repr, DecidableEq

namespace NumberScan

/-- Begin a number with this byte. -/
def start? (b : UInt8) : Option NumberScan :=
  if b = ascii '-' then some ⟨.minus, ['-']⟩
  else if b = ascii '0' then some ⟨.zero, ['0']⟩
  else if isDigit b then some ⟨.whole, [byteChar b]⟩
  else none

/-- The literal may end here. -/
def mayEnd (scan : NumberScan) : Bool :=
  match scan.stage with
  | .zero | .whole | .fraction | .power => true
  | .minus | .point | .mark | .sign => false

/-- The literal in its normal form. -/
def literal (scan : NumberScan) : Text :=
  scan.written.reverse

/-- Add a byte as it is. -/
def push (scan : NumberScan) (stage : NumberStage) (b : UInt8) : NumberScan :=
  ⟨stage, byteChar b :: scan.written⟩

/-- What a byte does to a number literal. -/
inductive Step
  /-- The byte belongs to the literal. -/
  | more (scan : NumberScan)
  /-- The byte is the first one behind the literal. -/
  | ended
  /-- The literal is malformed, and the byte was looked at only. -/
  | refused
  /-- The literal is malformed, and the byte was taken. -/
  | refusedTaken
deriving Repr, DecidableEq

/-- The point or the exponent mark may follow complete digits. -/
def stepMark (scan : NumberScan) (b : UInt8) : Step :=
  if b = ascii 'e' ∨ b = ascii 'E' then .more ⟨.mark, 'e' :: scan.written⟩ else .ended

/-- The point or the exponent mark may follow the whole part. -/
def stepPoint (scan : NumberScan) (b : UInt8) : Step :=
  if b = ascii '.' then .more (scan.push .point b) else scan.stepMark b

/-- Read one more byte of a literal. -/
def step (scan : NumberScan) (b : UInt8) : Step :=
  match scan.stage with
  | .minus =>
      if b = ascii '0' then .more (scan.push .zero b)
      else if isDigit b then .more (scan.push .whole b)
      else .refusedTaken
  | .zero => if isDigit b then .refused else scan.stepPoint b
  | .whole => if isDigit b then .more (scan.push .whole b) else scan.stepPoint b
  | .point => if isDigit b then .more (scan.push .fraction b) else .refused
  | .fraction => if isDigit b then .more (scan.push .fraction b) else scan.stepMark b
  | .mark =>
      if b = ascii '+' ∨ b = ascii '-' then .more (scan.push .sign b)
      else if isDigit b then .more ⟨.power, byteChar b :: '+' :: scan.written⟩
      else .refusedTaken
  | .sign => if isDigit b then .more (scan.push .power b) else .refusedTaken
  | .power => if isDigit b then .more (scan.push .power b) else .ended

end NumberScan

/-- The end of a scan over bytes: a literal with the bytes behind it, a refusal with the bytes not
taken, or the end of the bytes where the literal may not end. -/
inductive NumberReading
  | complete (literal : Text) (rest : List UInt8)
  | refused (rest : List UInt8)
  | unfinished
deriving Repr, DecidableEq

/-- Read a number literal that has begun. -/
def NumberScan.read (scan : NumberScan) : List UInt8 → NumberReading
  | [] => if scan.mayEnd then .complete scan.literal [] else .unfinished
  | b :: rest =>
      match scan.step b with
      | .more next => next.read rest
      | .ended => .complete scan.literal (b :: rest)
      | .refused => .refused (b :: rest)
      | .refusedTaken => .refused rest

/-- The number that a text spells, where the text is the whole literal and nothing else.  Its
refusals are placed in the text itself.  A byte behind a literal is an invalid number also when
the literal was malformed before it. -/
def readNumeral (text : Text) : Except SyntaxError Text :=
  let bytes := Utf8.encode text
  let upTo (rest : List UInt8) : Position :=
    Position.after (bytes.take (bytes.length - rest.length))
  let invalid (position : Position) : Except SyntaxError Text :=
    .error ⟨.invalidNumber, position⟩
  match bytes with
  | [] => .error ⟨.unfinished .value, .start⟩
  | b :: rest =>
      match NumberScan.start? b with
      | none => invalid (Position.start.advance b)
      | some scan =>
          match scan.read rest with
          | .complete literal [] => .ok literal
          | .complete _ (next :: unread) => invalid ((upTo (next :: unread)).advance next)
          | .refused [] => invalid (Position.after bytes)
          | .refused (next :: unread) => invalid ((upTo (next :: unread)).advance next)
          | .unfinished => .error ⟨.unfinished .value, Position.after bytes⟩

example : readNumeral ['1', 'E', '5'] = .ok ['1', 'e', '+', '5'] := rfl
example : readNumeral ['-', 'x'] = .error ⟨.invalidNumber, ⟨1, 2⟩⟩ := rfl
example : readNumeral ['-', 'x', 'y'] = .error ⟨.invalidNumber, ⟨1, 3⟩⟩ := rfl
example : readNumeral ['0', '1'] = .error ⟨.invalidNumber, ⟨1, 2⟩⟩ := rfl

/-- The integer that a literal spells, if it is one that fits a machine word: up to 2^64 - 1, or
down to -2^63.  The literal `-0` counts as no integer. -/
def wordInteger? (literal : Text) : Option Int :=
  match literal with
  | '-' :: digits =>
      if digits.all Char.isDigit ∧ digits ≠ [] then
        let n := Text.readDecimal digits
        if n = 0 then none else if n ≤ 0x8000000000000000 then some (-(n : Int)) else none
      else none
  | digits =>
      if digits.all Char.isDigit ∧ digits ≠ [] then
        let n := Text.readDecimal digits
        if n < 0x10000000000000000 then some (n : Int) else none
      else none

/-- A number of the wrong type, as messages name it. -/
def foundNumber (literal : Text) : Found :=
  match wordInteger? literal with
  | some n => .integer n
  | none => .number

end QueryLabel.Json
