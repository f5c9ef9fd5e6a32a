import QueryLabel.Toml.Item

/-!
The small parts of TOML documents: blanks, comments, ends of lines, strings and keys.  Every reader
takes a cursor and returns what it read and the cursor behind it, or nothing if the document is
malformed there.
-/

namespace QueryLabel.Toml

/-- A place in a document: the number of characters before it, and the characters behind it. -/
structure Cursor where
  offset : Nat
  rest : Text
deriving Repr, DecidableEq

namespace Cursor

/-- The character behind the cursor. -/
def peek? (cursor : Cursor) : Option Char :=
  cursor.rest.head?

/-- Move over characters as long as they pass a test. -/
def skipWhile (p : Char → Bool) (cursor : Cursor) : Cursor :=
  ⟨cursor.offset + (cursor.rest.takeWhile p).length, cursor.rest.dropWhile p⟩

/-- The characters that pass a test, and the cursor behind them. -/
def takeWhile (p : Char → Bool) (cursor : Cursor) : Text × Cursor :=
  (cursor.rest.takeWhile p, cursor.skipWhile p)

/-- Move over a number of characters. -/
def drop (n : Nat) (cursor : Cursor) : Cursor :=
  ⟨cursor.offset + (cursor.rest.take n).length, cursor.rest.drop n⟩

/-- Move over a text, if it is what comes next. -/
def expect? (text : Text) (cursor : Cursor) : Option Cursor :=
  if text.isPrefixOf cursor.rest then some (cursor.drop text.length) else none

/-- Move over a text, if it is what comes next, or else stay. -/
def skipText (text : Text) (cursor : Cursor) : Cursor :=
  (cursor.expect? text).getD cursor

end Cursor

/-- A blank: a space or a tab. -/
def isSpace (c : Char) : Bool :=
  c = ' ' || c = '\t'

/-- A character that comments and strings may hold: a tab, or no control. -/
def isPrintable (c : Char) : Bool :=
  c = '\t' || (0x20 ≤ c.toNat && c.toNat ≠ 0x7F)

namespace Cursor

/-- Move over blanks. -/
def skipSpace (cursor : Cursor) : Cursor :=
  cursor.skipWhile isSpace

/-- Move over the end of a line. -/
def newline? (cursor : Cursor) : Option Cursor :=
  match cursor.rest with
  | '\n' :: _ => some (cursor.drop 1)
  | '\r' :: '\n' :: _ => some (cursor.drop 2)
  | _ => none

/-- Move over the rest of a comment, up to the end of its line. -/
def skipComment (cursor : Cursor) : Cursor :=
  if cursor.peek? = some '#' then cursor.skipWhile isPrintable else cursor

/-- Move over the end of a line, or stay at the end of the document. -/
def lineEnd? (cursor : Cursor) : Option Cursor :=
  if cursor.rest = [] then some cursor else cursor.newline?

/-- What may follow on a line: blanks, a comment, and its end. -/
def trailing? (cursor : Cursor) : Option Cursor :=
  cursor.skipSpace.skipComment.lineEnd?

/-- Move over blanks, comments and ends of lines; `budget` bounds the number of lines. -/
def skipLines (cursor : Cursor) : Nat → Cursor
  | 0 => cursor.skipSpace
  | budget + 1 =>
      match cursor.skipSpace.skipComment.newline? with
      | some next => next.skipLines budget
      | none => cursor.skipSpace

/-- Move over all blanks, comments and ends of lines. -/
def skipBlankLines (cursor : Cursor) : Cursor :=
  cursor.skipLines cursor.rest.length

end Cursor

/-- The character of an escape of one letter. -/
def escapeChar? (c : Char) : Option Char :=
  match c with
  | 'b' => some '\x08'
  | 't' => some '\t'
  | 'n' => some '\n'
  | 'f' => some '\x0c'
  | 'r' => some '\r'
  | '"' => some '"'
  | '\\' => some '\\'
  | _ => none

/-- The character with the number that some hexadecimal digits spell. -/
def charOfHex? (digits : Text) : Option Char := do
  let n ← digits.foldlM (fun n c => (Text.hexDigit? c).map (fun d => n * 16 + d)) 0
  if n.isValidChar then some (Char.ofNat n) else none

/-- The character of an escape, from the character behind the backslash on. -/
def readEscape? (cursor : Cursor) : Option (Char × Cursor) :=
  match cursor.rest with
  | 'u' :: rest => readHex? (rest.take 4) 4
  | 'U' :: rest => readHex? (rest.take 8) 8
  | c :: _ => (escapeChar? c).map (·, cursor.drop 1)
  | [] => none
where
  /-- The character that a number of digits behind a letter spell. -/
  readHex? (digits : Text) (count : Nat) : Option (Char × Cursor) :=
    if digits.length < count then none
    else (charOfHex? digits).map (·, cursor.drop (count + 1))

/-- The rest of a string on one line, behind its opening quote; `budget` bounds its length. -/
def basicBody? (cursor : Cursor) : Nat → Option (Text × Cursor)
  | 0 => none
  | budget + 1 =>
      match cursor.rest with
      | [] => none
      | c :: _ =>
          if c = '"' then some ([], cursor.drop 1)
          else if c = '\\' then do
            let (e, cursor) ← readEscape? (cursor.drop 1)
            let (text, cursor) ← basicBody? cursor budget
            some (e :: text, cursor)
          else if isPrintable c then do
            let (text, cursor) ← basicBody? (cursor.drop 1) budget
            some (c :: text, cursor)
          else none

/-- The rest of a literal string on one line, behind its opening quote. -/
def literalBody? (cursor : Cursor) : Option (Text × Cursor) :=
  let (text, cursor) := cursor.takeWhile fun c => c ≠ '\'' && isPrintable c
  if cursor.peek? = some '\'' then some (text, cursor.drop 1) else none

/-- The end of a string of several lines at a row of quotes: fewer than three belong to the text,
and of more than three the first one or two do. -/
def closingQuotes (count : Nat) : Option Nat :=
  if count < 3 then none else some (count - 3)

/-- The rest of a string of several lines, behind its opening quotes; `budget` bounds its length.
A backslash at the end of a line takes away all white space up to the next character. -/
def linesBody? (quote : Char) (escapes : Bool) (cursor : Cursor) :
    Nat → Option (Text × Cursor)
  | 0 => none
  | budget + 1 =>
      match cursor.rest with
      | [] => none
      | c :: _ =>
          if c = quote then
            let (quotes, behind) := cursor.takeWhile (· = quote)
            match closingQuotes quotes.length with
            | some extra => if extra ≤ 2 then some (quotes.take extra, behind) else none
            | none => do
                let (text, cursor) ← linesBody? quote escapes behind budget
                some (quotes ++ text, cursor)
          else if c = '\\' ∧ escapes then
            match (cursor.drop 1).skipSpace.newline? with
            | some next => linesBody? quote escapes (skipWhite next) budget
            | none => do
                let (e, cursor) ← readEscape? (cursor.drop 1)
                let (text, cursor) ← linesBody? quote escapes cursor budget
                some (e :: text, cursor)
          else if isPrintable c then do
            let (text, cursor) ← linesBody? quote escapes (cursor.drop 1) budget
            some (c :: text, cursor)
          else
            match cursor.newline? with
            | some next => do
                let (text, cursor) ← linesBody? quote escapes next budget
                some ('\n' :: text, cursor)
            | none => none
where
  /-- Move over blanks and ends of lines. -/
  skipWhite (cursor : Cursor) : Cursor :=
    go cursor cursor.rest.length
  /-- Move over blanks and a number of lines. -/
  go (cursor : Cursor) : Nat → Cursor
    | 0 => cursor.skipSpace
    | budget + 1 =>
        match cursor.skipSpace.newline? with
        | some next => go next budget
        | none => cursor.skipSpace

/-- Read a string of any kind.  An end of line directly behind opening triple quotes does not
count. -/
def readString? (cursor : Cursor) : Option (Text × Cursor) :=
  let budget := cursor.rest.length
  let several (quote : Char) (escapes : Bool) : Option (Text × Cursor) :=
    let inner := cursor.drop 3
    linesBody? quote escapes (inner.newline?.getD inner) budget
  match cursor.rest with
  | '"' :: '"' :: '"' :: _ => several '"' true
  | '\'' :: '\'' :: '\'' :: _ => several '\'' false
  | '"' :: _ => basicBody? (cursor.drop 1) budget
  | '\'' :: _ => literalBody? (cursor.drop 1)
  | _ => none

/-- A character of a key without quotes. -/
def isBareKey (c : Char) : Bool :=
  c.isAlphanum || c = '-' || c = '_'

/-- Read one key, with or without quotes, on one line. -/
def readKey? (cursor : Cursor) : Option (Key × Cursor) := do
  let (name, behind) ←
    match cursor.rest with
    | '"' :: _ => basicBody? (cursor.drop 1) cursor.rest.length
    | '\'' :: _ => literalBody? (cursor.drop 1)
    | _ =>
        let (name, behind) := cursor.takeWhile isBareKey
        if name = [] then none else some (name, behind)
  some (⟨name, ⟨cursor.offset, behind.offset⟩⟩, behind)

/-- The depth that parts and keys may not reach. -/
def depthLimit : Nat := 80

/-- Read keys with dots between them, and blanks around each of them. -/
def readKeys? (cursor : Cursor) : Nat → Option (List Key × Cursor)
  | 0 => none
  | budget + 1 => do
      let (key, cursor) ← readKey? cursor.skipSpace
      let cursor := cursor.skipSpace
      if cursor.peek? = some '.' then
        let (keys, cursor) ← readKeys? (cursor.drop 1) budget
        some (key :: keys, cursor)
      else some ([key], cursor)

/-- Read a dotted key: the path in front of the last dot, and the key behind it.  There are fewer
parts than the depth limit. -/
def readDottedKey? (cursor : Cursor) : Option (List Key × Key × Cursor) := do
  let (keys, cursor) ← readKeys? cursor (depthLimit - 1)
  let last ← keys.getLast?
  some (keys.dropLast, last, cursor)

end QueryLabel.Toml
