import QueryLabel.Json.Reader

/-!
The grammar of JSON documents.  `Spells s t` derives the tree `t` from the bytes `s`: escapes are
decoded and a number is put in its normal form, but members stay as they are written, repeated
keys included.  What a tree stands for is a question of its own (`value?`): members are collected
by key, and an object whose first key is the numeral key stands for a number.
-/

namespace QueryLabel

theorem eq_ok_of_toOption {ε α : Type} {result : Except ε α} {value : α}
    (h : result.toOption = some value) : result = .ok value := by
  cases result with
  | error e => cases h
  | ok found => exact congrArg Except.ok (Option.some.inj h)

namespace Json

open Text (ascii)

/-- Bytes that may stand between tokens. -/
def Spaces (s : List UInt8) : Prop :=
  ∀ b ∈ s, b = ascii ' ' ∨ b = ascii '\n' ∨ b = ascii '\r' ∨ b = ascii '\t'

/-- One digit or more. -/
def Digits (s : List UInt8) : Prop :=
  s ≠ [] ∧ ∀ b ∈ s, isDigit b

/-- The whole part of a number: a lone zero, or digits that do not begin with one. -/
inductive WholePart : List UInt8 → Prop
  | zero : WholePart [ascii '0']
  | digits {d : UInt8} {s : List UInt8} (hd : isDigit d) (hzero : d ≠ ascii '0')
      (hs : ∀ b ∈ s, isDigit b) : WholePart (d :: s)

/-- The fraction of a number, if it has one. -/
inductive FractionPart : List UInt8 → Prop
  | none : FractionPart []
  | point {s : List UInt8} (hs : Digits s) : FractionPart (ascii '.' :: s)

/-- The exponent of a number, if it has one, and its normal form: a small `e` and a sign. -/
inductive ExponentPart : List UInt8 → Text → Prop
  | none : ExponentPart [] []
  | unsigned {mark : UInt8} {s : List UInt8} (hmark : mark = ascii 'e' ∨ mark = ascii 'E')
      (hs : Digits s) : ExponentPart (mark :: s) ('e' :: '+' :: s.map byteChar)
  | signed {mark sign : UInt8} {s : List UInt8} (hmark : mark = ascii 'e' ∨ mark = ascii 'E')
      (hsign : sign = ascii '+' ∨ sign = ascii '-') (hs : Digits s) :
      ExponentPart (mark :: sign :: s) ('e' :: byteChar sign :: s.map byteChar)

/-- A number and its literal in normal form. -/
inductive SpellsNumber : List UInt8 → Text → Prop
  | mk {sign whole fraction exponent : List UInt8} {power : Text}
      (hsign : sign = [] ∨ sign = [ascii '-']) (hwhole : WholePart whole)
      (hfraction : FractionPart fraction) (hexponent : ExponentPart exponent power) :
      SpellsNumber (sign ++ whole ++ fraction ++ exponent)
        ((sign ++ whole ++ fraction).map byteChar ++ power)

/-- Four hexadecimal digits and the UTF-16 unit that they stand for. -/
inductive HexUnit : List UInt8 → Nat → Prop
  | mk {a b c d : UInt8} {w x y z : Nat} (ha : Text.hexDigit? (byteChar a) = some w)
      (hb : Text.hexDigit? (byteChar b) = some x) (hc : Text.hexDigit? (byteChar c) = some y)
      (hd : Text.hexDigit? (byteChar d) = some z) :
      HexUnit [a, b, c, d] (w * 0x1000 + x * 0x100 + y * 0x10 + z)

/-- The escapes of one letter and the characters they stand for. -/
def letterEscapes : List (Char × Char) :=
  [('"', '"'), ('\\', '\\'), ('/', '/'), ('b', '\x08'), ('f', '\x0c'), ('n', '\n'),
    ('r', '\r'), ('t', '\t')]

/-- One character of a string: as itself, by the letter of an escape, or by the units of one
`\u` escape or of two that are a pair. -/
inductive SpellsChar : List UInt8 → Char → Prop
  | plain {c : Char} (hcontrol : 0x20 ≤ c.toNat) (hquote : c ≠ '"') (hslash : c ≠ '\\') :
      SpellsChar (Utf8.encodeChar c) c
  | letter {mark c : Char} (h : (mark, c) ∈ letterEscapes) :
      SpellsChar [ascii '\\', ascii mark] c
  | unit {s : List UInt8} {n : Nat} (hs : HexUnit s n) (hlead : isLead n = false)
      (htrail : isTrail n = false) : SpellsChar (ascii '\\' :: ascii 'u' :: s) (Char.ofNat n)
  | pair {s r : List UInt8} {m n : Nat} (hs : HexUnit s m) (hlead : isLead m = true)
      (hr : HexUnit r n) (htrail : isTrail n = true) :
      SpellsChar (ascii '\\' :: ascii 'u' :: s ++ ascii '\\' :: ascii 'u' :: r) (pairChar m n)

/-- What stands between the quotes of a string. -/
inductive SpellsText : List UInt8 → Text → Prop
  | nil : SpellsText [] []
  | cons {s r : List UInt8} {c : Char} {text : Text} (hc : SpellsChar s c)
      (htext : SpellsText r text) : SpellsText (s ++ r) (c :: text)

mutual

/-- A value, without white space around it. -/
inductive Spells : List UInt8 → Json → Prop
  | null : Spells ("null".toList.map ascii) .null
  | true : Spells ("true".toList.map ascii) (.bool .true)
  | false : Spells ("false".toList.map ascii) (.bool .false)
  | number {s : List UInt8} {literal : Text} (h : SpellsNumber s literal) :
      Spells s (.number literal)
  | string {s : List UInt8} {text : Text} (h : SpellsText s text) :
      Spells (ascii '"' :: s ++ [ascii '"']) (.string text)
  | emptyArray {w : List UInt8} (hw : Spaces w) :
      Spells (ascii '[' :: w ++ [ascii ']']) (.array [])
  | array {s : List UInt8} {items : List Json} (h : SpellsItems s items) :
      Spells (ascii '[' :: s ++ [ascii ']']) (.array items)
  | emptyObject {w : List UInt8} (hw : Spaces w) :
      Spells (ascii '{' :: w ++ [ascii '}']) (.object [])
  | object {s : List UInt8} {members : Members} (h : SpellsMembers s members) :
      Spells (ascii '{' :: s ++ [ascii '}']) (.object members)

/-- The items of an array: one or more, with commas between them. -/
inductive SpellsItems : List UInt8 → List Json → Prop
  | one {a s b : List UInt8} {item : Json} (ha : Spaces a) (h : Spells s item) (hb : Spaces b) :
      SpellsItems (a ++ s ++ b) [item]
  | cons {a s b r : List UInt8} {item : Json} {items : List Json} (ha : Spaces a)
      (h : Spells s item) (hb : Spaces b) (hr : SpellsItems r items) :
      SpellsItems (a ++ s ++ b ++ ascii ',' :: r) (item :: items)

/-- A member of an object: a key, a colon and a value. -/
inductive SpellsMember : List UInt8 → Text × Json → Prop
  | mk {a k b c s d : List UInt8} {key : Text} {value : Json} (ha : Spaces a)
      (hkey : SpellsText k key) (hb : Spaces b) (hc : Spaces c) (h : Spells s value)
      (hd : Spaces d) :
      SpellsMember (a ++ ascii '"' :: k ++ ascii '"' :: b ++ ascii ':' :: c ++ s ++ d)
        (key, value)

/-- The members of an object: one or more, with commas between them. -/
inductive SpellsMembers : List UInt8 → Members → Prop
  | one {s : List UInt8} {member : Text × Json} (h : SpellsMember s member) :
      SpellsMembers s [member]
  | cons {s r : List UInt8} {member : Text × Json} {members : Members}
      (h : SpellsMember s member) (hr : SpellsMembers r members) :
      SpellsMembers (s ++ ascii ',' :: r) (member :: members)

end

mutual

/-- How many containers are open at a time, at most, in a value. -/
def depth : Json → Nat
  | .null => 0
  | .bool _ => 0
  | .number _ => 0
  | .string _ => 0
  | .array items => depthItems items + 1
  | .object members => depthMembers members + 1
termination_by structural value => value

/-- The greatest depth of an item. -/
def depthItems : List Json → Nat
  | [] => 0
  | item :: rest => max (depth item) (depthItems rest)
termination_by structural items => items

/-- The depth of a member's value. -/
def depthMember : Text × Json → Nat
  | (_, value) => depth value
termination_by structural member => member

/-- The greatest depth of a member's value. -/
def depthMembers : List (Text × Json) → Nat
  | [] => 0
  | member :: rest => max (depthMember member) (depthMembers rest)
termination_by structural members => members

end

/-- A document: a value with white space around it and no more containers open at a time than
the reader allows. -/
inductive Document : List UInt8 → Json → Prop
  | mk {a s b : List UInt8} {tree : Json} (ha : Spaces a) (h : Spells s tree) (hb : Spaces b)
      (hdepth : tree.depth ≤ depthLimit) : Document (a ++ s ++ b) tree

/-- Members by their keys: a key that comes again keeps its first place and takes the last
value. -/
def Members.collect (members : Members) : Members :=
  members.foldl (fun collected member => collected.put member.1 member.2) []

/-- The key of the first member. -/
def Members.firstKey? (members : Members) : Option Text :=
  members.head?.map Prod.fst

/-- The number that the members of an object with the numeral key stand for: there is no other
member, and its value is the literal as a string. -/
def numeralValue? : Members → Option Json
  | [(_, .string text)] => (readNumeral text).toOption.map .number
  | _ => none

theorem of_numeralValue? {members : Members} {value : Json}
    (h : numeralValue? members = some value) :
    ∃ key text literal, members = [(key, .string text)] ∧ readNumeral text = .ok literal ∧
      value = .number literal := by
  unfold numeralValue? at h
  split at h
  · next key text =>
      obtain ⟨literal, hread, rfl⟩ := Option.map_eq_some_iff.mp h
      exact ⟨key, text, literal, rfl, eq_ok_of_toOption hread, rfl⟩
  · contradiction

mutual

/-- The value that a tree stands for, if it stands for one. -/
def value? : Json → Option Json
  | .null => some .null
  | .bool b => some (.bool b)
  | .number literal => some (.number literal)
  | .string text => some (.string text)
  | .array items => (valueItems? items).map .array
  | .object members =>
      if Members.firstKey? members = some numeralKey then numeralValue? members
      else (valueMembers? members).map fun values => .object (Members.collect values)
termination_by structural tree => tree

/-- The values that items stand for. -/
def valueItems? : List Json → Option (List Json)
  | [] => some []
  | item :: rest => do
      let value ← value? item
      let values ← valueItems? rest
      some (value :: values)
termination_by structural items => items

/-- A key and the value that its tree stands for. -/
def valueMember? : Text × Json → Option (Text × Json)
  | (key, tree) => (value? tree).map fun value => (key, value)
termination_by structural member => member

/-- The members with the values that their trees stand for, as they are written. -/
def valueMembers? : List (Text × Json) → Option (List (Text × Json))
  | [] => some []
  | member :: rest => do
      let value ← valueMember? member
      let values ← valueMembers? rest
      some (value :: values)
termination_by structural members => members

end

/-- No object has the numeral key as its first one. -/
inductive NumeralFree : Json → Prop
  | null : NumeralFree .null
  | bool {b : Bool} : NumeralFree (.bool b)
  | number {literal : Text} : NumeralFree (.number literal)
  | string {text : Text} : NumeralFree (.string text)
  | array {items : List Json} (h : ∀ item ∈ items, NumeralFree item) :
      NumeralFree (.array items)
  | object {members : Members} (hfirst : members.firstKey? ≠ some numeralKey)
      (h : ∀ member ∈ members, NumeralFree member.2) : NumeralFree (.object members)

end Json

end QueryLabel
