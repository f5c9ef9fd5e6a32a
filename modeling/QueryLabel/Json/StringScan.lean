import QueryLabel.Json.SyntaxError
import QueryLabel.Text.Utf8

/-!
Strings between quotes.  A scanner goes through a string byte by byte, from the byte behind the
opening quote to the closing one, and undoes the escapes.  Whether the bytes spell a text is
judged at the closing quote.
-/

namespace QueryLabel.Json

open Text (ascii)

/-- Where in a string a scan is: between characters, behind a backslash, among the digits of a
`\u` escape, or in front of the backslash or the `u` of the second half of a pair. -/
inductive StringStage
  | plain
  | escape
  | digits (lead : Option Nat) (read : List UInt8)
  | pairSlash (lead : Nat)
  | pairMark (lead : Nat)
deriving Repr, DecidableEq

/-- A string as far as it was read: its bytes, last one first. -/
structure StringScan where
  stage : StringStage := .plain
  decoded : List UInt8 := []
deriving Repr, DecidableEq

/-- The number that four hexadecimal digits spell. -/
def hexUnit? (digits : List UInt8) : Option Nat :=
  digits.foldlM
    (fun n b => (Text.hexDigit? (Char.ofNat b.toNat)).map (fun d => n * 16 + d)) 0

/-- The first half of a surrogate pair. -/
def isLead (unit : Nat) : Bool :=
  0xD800 ≤ unit && unit < 0xDC00

/-- The second half of a surrogate pair. -/
def isTrail (unit : Nat) : Bool :=
  0xDC00 ≤ unit && unit < 0xE000

/-- The character that a surrogate pair spells. -/
def pairChar (lead trail : Nat) : Char :=
  Char.ofNat (0x10000 + (lead - 0xD800) * 0x400 + (trail - 0xDC00))

/-- The character of an escape of one letter. -/
def escapeChar? (b : UInt8) : Option UInt8 :=
  if b = ascii '"' ∨ b = ascii '\\' ∨ b = ascii '/' then some b
  else if b = ascii 'b' then some 0x08
  else if b = ascii 'f' then some 0x0C
  else if b = ascii 'n' then some 0x0A
  else if b = ascii 'r' then some 0x0D
  else if b = ascii 't' then some 0x09
  else none

namespace StringScan

/-- Add a character and go on. -/
def push (scan : StringScan) (c : Char) : StringScan :=
  ⟨.plain, (Utf8.encodeChar c).reverse ++ scan.decoded⟩

/-- What a byte does to a string. -/
inductive Step
  | more (scan : StringScan)
  | closed (text : Text)

/-- The end of a string: its bytes have to spell a text. -/
def close (scan : StringScan) : Except Fault Step :=
  match Utf8.decode scan.decoded.reverse with
  | (text, []) => .ok (.closed text)
  | (_, b :: undecoded) => .error ⟨.invalidCodePoint, .back (b :: undecoded).length⟩

/-- A complete `\u` escape: a character, or half of a pair. -/
def unit (scan : StringScan) (lead : Option Nat) (n : Nat) : Except Fault Step :=
  match lead with
  | none =>
      if isTrail n then .error ⟨.loneSurrogate, .afterByte⟩
      else if isLead n then .ok (.more ⟨.pairSlash n, scan.decoded⟩)
      else .ok (.more (scan.push (Char.ofNat n)))
  | some first =>
      if isTrail n then .ok (.more (scan.push (pairChar first n)))
      else .error ⟨.loneSurrogate, .afterByte⟩

/-- Read one more byte of a string. -/
def step (scan : StringScan) (b : UInt8) : Except Fault Step :=
  match scan.stage with
  | .plain =>
      if b = ascii '"' then scan.close
      else if b = ascii '\\' then .ok (.more ⟨.escape, scan.decoded⟩)
      else if b < 0x20 then .error ⟨.controlCharacter, .afterByte⟩
      else .ok (.more ⟨.plain, b :: scan.decoded⟩)
  | .escape =>
      if b = ascii 'u' then .ok (.more ⟨.digits none [], scan.decoded⟩)
      else
        match escapeChar? b with
        | some c => .ok (.more ⟨.plain, c :: scan.decoded⟩)
        | none => .error ⟨.invalidEscape, .afterByte⟩
  | .digits lead read =>
      let read := read ++ [b]
      if read.length < 4 then .ok (.more ⟨.digits lead read, scan.decoded⟩)
      else
        match hexUnit? read with
        | some n => scan.unit lead n
        | none => .error ⟨.invalidEscape, .afterByte⟩
  | .pairSlash lead =>
      if b = ascii '\\' then .ok (.more ⟨.pairMark lead, scan.decoded⟩)
      else .error ⟨.unfinishedPair, .afterByte⟩
  | .pairMark lead =>
      if b = ascii 'u' then .ok (.more ⟨.digits (some lead) [], scan.decoded⟩)
      else .error ⟨.unfinishedPair, .afterByte⟩

end StringScan

end QueryLabel.Json
