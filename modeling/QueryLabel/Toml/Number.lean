import QueryLabel.Binary64.Literal
import QueryLabel.Toml.Lexeme

/-!
Numbers, dates and times of TOML documents.  A date is tried first, then a number with a fraction
or an exponent, then a whole one.
-/

namespace QueryLabel.Toml

/-- Digits of some base with single underscores between them, without the underscores. -/
def readDigits? (isDigit : Char → Bool) (cursor : Cursor) : Option (Text × Cursor) :=
  let (text, behind) := cursor.takeWhile fun c => isDigit c || c = '_'
  if wellPlaced text then some (text.filter (· ≠ '_'), behind) else none
where
  /-- Digits at both ends, and no two underscores next to each other. -/
  wellPlaced : Text → Bool
    | [] => false
    | [c] => c ≠ '_'
    | c :: d :: rest => c ≠ '_' && (if d = '_' then wellPlaced rest else wellPlaced (d :: rest))

/-- A sign in front of a number. -/
def readSign (cursor : Cursor) : Text × Cursor :=
  match cursor.rest with
  | '+' :: _ => (['+'], cursor.drop 1)
  | '-' :: _ => (['-'], cursor.drop 1)
  | _ => ([], cursor)

/-- A whole decimal number with its sign.  A zero in front stands alone. -/
def readWhole? (cursor : Cursor) : Option (Text × Cursor) := do
  let (sign, cursor) := readSign cursor
  if cursor.peek? = some '0' then some (sign ++ ['0'], cursor.drop 1)
  else
    let (digits, cursor) ← readDigits? Char.isDigit cursor
    some (sign ++ digits, cursor)

/-- The exponent of a number. -/
def readPower? (cursor : Cursor) : Option (Text × Cursor) :=
  if cursor.peek? = some 'e' ∨ cursor.peek? = some 'E' then do
    let (sign, cursor) := readSign (cursor.drop 1)
    let (digits, cursor) ← readDigits? Char.isDigit cursor
    some ('e' :: sign ++ digits, cursor)
  else none

/-- The result of trying to read something: it is not there, it is malformed, or it was read. -/
inductive Attempt (α : Type)
  | absent
  | malformed
  | read (value : α) (cursor : Cursor)

/-- A number with a fraction or an exponent.  One that is too large is malformed, but not one that
is too small. -/
def readFloat (cursor : Cursor) : Attempt Binary64 :=
  match readWhole? cursor with
  | none => .absent
  | some (whole, behind) =>
      let fraction : Option (Text × Cursor) :=
        if behind.peek? = some '.' then
          (readDigits? Char.isDigit (behind.drop 1)).map fun r => ('.' :: r.1, r.2)
        else some ([], behind)
      match fraction with
      | none => .malformed
      | some (fraction, behind) =>
          let mark := behind.peek? = some 'e' ∨ behind.peek? = some 'E'
          if fraction = [] ∧ ¬ mark then .absent
          else
            match (if mark then readPower? behind else some ([], behind)) with
            | none => .malformed
            | some (power, behind) =>
                match Binary64.readLiteral? (whole ++ fraction ++ power) with
                | none | some (.infinite false) => .malformed
                | some x => .read x behind

/-- An infinity, or no number at all, with a sign. -/
def readSpecial? (cursor : Cursor) : Option (Binary64 × Cursor) :=
  let (sign, cursor) := readSign cursor
  match cursor.expect? "inf".toList with
  | some behind => some (.infinite (sign = ['-']), behind)
  | none => (cursor.expect? "nan".toList).map fun behind => (.nan, behind)

/-- Whether a whole number fits 64 bits with a sign. -/
def fits (n : Int) : Bool :=
  -0x8000000000000000 ≤ n && n < 0x8000000000000000

/-- The value of digits in a base. -/
def valueInBase (base : Nat) (digits : Text) : Nat :=
  digits.foldl (fun n c => n * base + (Text.hexDigit? c).getD 0) 0

/-- A whole number with a base in front: sixteen, eight or two. -/
def readBased? (base : Nat) (cursor : Cursor) : Option (Int × Cursor) := do
  let (digits, behind) ←
    readDigits? (fun c => (Text.hexDigit? c).any (· < base)) (cursor.drop 2)
  let n : Int := valueInBase base digits
  if fits n then some (n, behind) else none

/-- A whole number. -/
def readInteger? (cursor : Cursor) : Option (Int × Cursor) :=
  match cursor.rest with
  | '0' :: 'x' :: _ => readBased? 16 cursor
  | '0' :: 'o' :: _ => readBased? 8 cursor
  | '0' :: 'b' :: _ => readBased? 2 cursor
  | _ => do
      let (text, behind) ← readWhole? cursor
      let (negative, digits) := Binary64.splitSign text
      let size : Int := Text.readDecimal digits
      let n := if negative then -size else size
      if fits n then some (n, behind) else none

/-- Exactly this many digits, with a value between two bounds. -/
def readField? (width low high : Nat) (cursor : Cursor) : Option (Nat × Cursor) :=
  let digits := cursor.rest.take width
  if digits.length = width ∧ digits.all Char.isDigit then
    let n := Text.readDecimal digits
    if low ≤ n ∧ n ≤ high then some (n, cursor.drop width) else none
  else none

/-- The number of days of a month. -/
def daysOfMonth (year month : Nat) : Nat :=
  if month = 2 then
    if year % 4 = 0 ∧ (year % 100 ≠ 0 ∨ year % 400 = 0) then 29 else 28
  else if month = 4 ∨ month = 6 ∨ month = 9 ∨ month = 11 then 30
  else 31

/-- Move over a date. -/
def skipDate? (cursor : Cursor) : Option Cursor := do
  let (year, cursor) ← readField? 4 0 9999 cursor
  let cursor ← cursor.expect? ['-']
  let (month, cursor) ← readField? 2 1 12 cursor
  let cursor ← cursor.expect? ['-']
  let (_, cursor) ← readField? 2 1 (daysOfMonth year month) cursor
  some cursor

/-- Move over a time of day. -/
def skipTime? (cursor : Cursor) : Option Cursor := do
  let (_, cursor) ← readField? 2 0 23 cursor
  let cursor ← cursor.expect? [':']
  let (_, cursor) ← readField? 2 0 59 cursor
  let cursor ← cursor.expect? [':']
  let (_, cursor) ← readField? 2 0 60 cursor
  match cursor.expect? ['.'] with
  | none => some cursor
  | some behind =>
      let (digits, behind) := behind.takeWhile Char.isDigit
      if digits = [] then none else some behind

/-- Move over the offset of a time zone, if there is one. -/
def skipZone (cursor : Cursor) : Option Cursor :=
  match cursor.rest with
  | 'Z' :: _ | 'z' :: _ => some (cursor.drop 1)
  | '+' :: _ | '-' :: _ => do
      let (_, cursor) ← readField? 2 0 23 (cursor.drop 1)
      let cursor ← cursor.expect? [':']
      let (_, cursor) ← readField? 2 0 59 cursor
      some cursor
  | _ => some cursor

/-- Move over a date, a time, or both with perhaps a time zone. -/
def skipDatetime? (cursor : Cursor) : Option Cursor :=
  match skipDate? cursor with
  | none => skipTime? cursor
  | some day =>
      match day.rest with
      | 'T' :: _ | 't' :: _ | ' ' :: _ =>
          match skipTime? (day.drop 1) with
          | some time => skipZone time
          | none => some day
      | _ => some day

/-- Read a date or a number. -/
def readNumber? (cursor : Cursor) : Option (Scalar × Cursor) :=
  match skipDatetime? cursor with
  | some behind => some (.datetime, behind)
  | none =>
      match readFloat cursor with
      | .read x behind => some (.float x, behind)
      | .malformed => none
      | .absent =>
          match readSpecial? cursor with
          | some (x, behind) => some (.float x, behind)
          | none => (readInteger? cursor).map fun r => (.integer r.1, r.2)

end QueryLabel.Toml
