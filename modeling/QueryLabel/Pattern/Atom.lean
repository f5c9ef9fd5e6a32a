import QueryLabel.Pattern.Options

/-!
The smallest parts of a pattern: characters, kinds of characters, and edges between them, with
the escapes that spell them.
-/

namespace QueryLabel.Pattern

/-- A smallest part: a character, which may be spelled as a byte; a kind of characters (digits,
blanks or the characters of words), or all characters but that kind; or a place between
characters, which may be an edge of a word. -/
inductive Atom
  | char (c : Char) (byte : Bool)
  | kind (negated : Bool)
  | edge (word : Bool)
deriving Repr, DecidableEq

/-- The number of hexadecimal digits behind a letter that spells a character by its number. -/
def hexLength? : Char → Option Nat
  | 'x' => some 2
  | 'u' => some 4
  | 'U' => some 8
  | _ => none

/-- Read hexadecimal digits, behind digits of which the number is known. -/
def readHex? (options : Options) : Nat → Nat → Text → Option (Nat × Text)
  | 0, n, text => some (n, text)
  | count + 1, n, text =>
      match options.skip text with
      | [] => none
      | c :: rest => do
          let digit ← Text.hexDigit? c
          readHex? options count (n * 16 + digit) rest

/-- What a single character behind a backslash stands for.  Letters and digits have to be known,
and the other ASCII characters stand for themselves. -/
def escaped? (c : Char) : Option Atom :=
  match c with
  | 'a' => some (.char '\x07' false)
  | 'f' => some (.char '\x0c' false)
  | 't' => some (.char '\t' false)
  | 'n' => some (.char '\n' false)
  | 'r' => some (.char '\r' false)
  | 'v' => some (.char '\x0b' false)
  | 'd' | 's' | 'w' => some (.kind false)
  | 'D' | 'S' | 'W' => some (.kind true)
  | 'A' | 'z' => some (.edge false)
  | 'b' | 'B' | '<' | '>' => some (.edge true)
  | c => if c.isAlphanum ∨ 0x80 ≤ c.toNat then none else some (.char c false)

/-- Read an escape, from the character behind the backslash on. -/
def readEscape? (options : Options) : Text → Option (Atom × Text)
  | [] => none
  | c :: rest =>
      match hexLength? c with
      | none => (escaped? c).map (·, rest)
      | some count => do
          let (n, rest) ← readHex? options count 0 rest
          if n.isValidChar then some (.char (Char.ofNat n) (c = 'x'), rest) else none

/-- Read an escape, or a character that stands for itself. -/
def readAtom? (options : Options) : Text → Option (Atom × Text)
  | [] => none
  | '\\' :: rest => readEscape? options rest
  | c :: rest => some (.char c false, rest)

namespace Options

/-- Whether a character can stand for itself and for the other case of its letter, and for nothing
but whole characters.  Cases are known among bytes only, and a byte above 7F is a part of a
character. -/
def allowsChar (options : Options) (c : Char) (byte : Bool) : Bool :=
  if options.unicode then !options.anyCase else !(byte && 0x80 ≤ c.toNat)

/-- Whether the characters of a kind are known.  They are among bytes only, where all but a kind
would take in parts of characters. -/
def allowsKind (options : Options) (negated : Bool) : Bool :=
  !options.unicode && !negated

/-- Whether an atom may stand outside of brackets. -/
def allows (options : Options) : Atom → Bool
  | .char c byte => options.allowsChar c byte
  | .kind negated => options.allowsKind negated
  | .edge _ => true

/-- Whether an atom may stand between brackets, where bytes are ASCII. -/
def allowsMember (options : Options) : Atom → Bool
  | .char c _ => options.allowsChar c true
  | .kind negated => options.allowsKind negated
  | .edge _ => false

/-- Whether a named set of ASCII characters may stand between brackets.  Among bytes all others
would take in parts of characters. -/
def allowsNamed (options : Options) (negated : Bool) : Bool :=
  if options.unicode then !options.anyCase else !negated

end Options

example : readEscape? {} "x41b".toList = some (.char 'A' true, ['b']) := by decide
example : readEscape? {} "1".toList = none := by decide

end QueryLabel.Pattern
