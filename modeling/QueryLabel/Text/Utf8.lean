import QueryLabel.Text.Basic

/-!
UTF-8 as a relation between bytes and characters: `encode` writes characters as bytes, and
`decode` reads the longest well-formed beginning of a byte string and hands back what is left.
A byte string is well-formed exactly when nothing is left.
-/

namespace QueryLabel.Utf8

/-- The bytes of one character: one below U+0080, two below U+0800, three below U+10000, else
four. -/
def encodeChar (c : Char) : List UInt8 :=
  let n := c.toNat
  if n < 0x80 then [n.toUInt8]
  else if n < 0x800 then [(0xC0 + n / 0x40).toUInt8, (0x80 + n % 0x40).toUInt8]
  else if n < 0x10000 then
    [(0xE0 + n / 0x1000).toUInt8, (0x80 + n / 0x40 % 0x40).toUInt8, (0x80 + n % 0x40).toUInt8]
  else
    [(0xF0 + n / 0x40000).toUInt8, (0x80 + n / 0x1000 % 0x40).toUInt8,
      (0x80 + n / 0x40 % 0x40).toUInt8, (0x80 + n % 0x40).toUInt8]

/-- The bytes of a text. -/
def encode (text : Text) : List UInt8 :=
  text.flatMap encodeChar

@[simp] theorem encode_nil : encode [] = [] := rfl

theorem encode_cons (c : Char) (text : Text) :
    encode (c :: text) = encodeChar c ++ encode text := rfl

theorem encode_append (a b : Text) : encode (a ++ b) = encode a ++ encode b := by
  simp [encode]

/-- The six bits that a continuation byte carries. -/
def continuation? (b : UInt8) : Option Nat :=
  if 0x80 ≤ b.toNat ∧ b.toNat < 0xC0 then some (b.toNat - 0x80) else none

/-- The character with number `n`, provided that `n` needs the length it was written in
(`least` is the first number that does) and is no surrogate and not beyond U+10FFFF. -/
def scalar? (least n : Nat) : Option Char :=
  if h : n.isValidChar then if least ≤ n then some (Char.ofNatAux n h) else none else none

/-- A character of one byte. -/
def one? (a : UInt8) : Option Char :=
  if a.toNat < 0x80 then some (Char.ofNat a.toNat) else none

/-- A character of two bytes. -/
def two? (a b : UInt8) : Option Char := do
  let y ← continuation? b
  if 0xC0 ≤ a.toNat ∧ a.toNat < 0xE0 then scalar? 0x80 ((a.toNat - 0xC0) * 0x40 + y) else none

/-- A character of three bytes. -/
def three? (a b c : UInt8) : Option Char := do
  let y ← continuation? b
  let z ← continuation? c
  if 0xE0 ≤ a.toNat ∧ a.toNat < 0xF0 then
    scalar? 0x800 ((a.toNat - 0xE0) * 0x1000 + y * 0x40 + z)
  else none

/-- A character of four bytes. -/
def four? (a b c d : UInt8) : Option Char := do
  let x ← continuation? b
  let y ← continuation? c
  let z ← continuation? d
  if 0xF0 ≤ a.toNat ∧ a.toNat < 0xF8 then
    scalar? 0x10000 ((a.toNat - 0xF0) * 0x40000 + x * 0x1000 + y * 0x40 + z)
  else none

/-- Put one more character in front of what was read. -/
def Reading.push (c : Char) (r : Text × List UInt8) : Text × List UInt8 :=
  (c :: r.1, r.2)

/-- Read characters as long as the bytes are well-formed, and return the bytes that remain.  The
remaining bytes are empty exactly when the whole byte string is well-formed. -/
def decode : List UInt8 → Text × List UInt8
  | [] => ([], [])
  | a :: s =>
    match one? a with
    | some ch => Reading.push ch (decode s)
    | none =>
      match s with
      | [] => ([], [a])
      | b :: s =>
        match two? a b with
        | some ch => Reading.push ch (decode s)
        | none =>
          match s with
          | [] => ([], [a, b])
          | c :: s =>
            match three? a b c with
            | some ch => Reading.push ch (decode s)
            | none =>
              match s with
              | [] => ([], [a, b, c])
              | d :: s =>
                match four? a b c d with
                | some ch => Reading.push ch (decode s)
                | none => ([], a :: b :: c :: d :: s)

/-- The text that a well-formed byte string spells. -/
def decode? (bytes : List UInt8) : Option (Text) :=
  match decode bytes with
  | (text, []) => some text
  | (_, _ :: _) => none

example : decode [0x61, 0xC3, 0xA9, 0xF0, 0x9F, 0x98, 0x80] = (['a', 'é', '😀'], []) := by decide
example : decode [0x61, 0xED, 0xA0, 0x80] = (['a'], [0xED, 0xA0, 0x80]) := by decide
example : decode? [0xC0, 0x80] = none := by decide

end QueryLabel.Utf8
