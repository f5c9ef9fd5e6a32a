import QueryLabel.Pattern.Atom

/-!
Sets of characters between brackets.  They hold characters, ranges, named sets and further
brackets; operators between rows of these take what both sides share, or only one of them.
-/

namespace QueryLabel.Pattern

/-- What was read between two brackets: how many members there are behind the last operator and how
high they are, how high all in front of that operator is, and whether nothing but hyphens was
read. -/
structure Bracket where
  members : Nat := 0
  tallest : Nat := 0
  left : Option Nat := none
  fresh : Bool := true
deriving Repr, DecidableEq

namespace Bracket

/-- Add a member. -/
def add (bracket : Bracket) (height : Nat) : Bracket :=
  { bracket with
    members := bracket.members + 1
    tallest := max bracket.tallest height
    fresh := false }

/-- The height of the members behind the last operator; two of them are a level of their own. -/
def rowHeight (bracket : Bracket) : Nat :=
  if 2 ≤ bracket.members then bracket.tallest + 1 else bracket.tallest

/-- The height of all that was read; an operator is a level of its own. -/
def height (bracket : Bracket) : Nat :=
  match bracket.left with
  | none => bracket.rowHeight
  | some left => max left bracket.rowHeight + 1

/-- Go on behind an operator. -/
def operate (bracket : Bracket) : Bracket :=
  { left := some bracket.height, fresh := false }

/-- Whether a character stands for itself because of its place: hyphens behind the opening bracket,
and a closing bracket right behind it. -/
def takes (bracket : Bracket) (c : Char) : Bool :=
  bracket.fresh && (c = '-' || (c = ']' && bracket.members = 0))

end Bracket

/-- The names of sets of ASCII characters. -/
def setNames : List Text :=
  ["alnum", "alpha", "ascii", "blank", "cntrl", "digit", "graph", "lower", "print", "punct",
    "space", "upper", "word", "xdigit"].map String.toList

/-- Read a name between colons, behind an opening bracket, and the closing bracket; a caret in front
of the name asks for all other characters. -/
def readNamed? : Text → Option (Bool × Text)
  | ':' :: '^' :: rest => (readName? rest).map (true, ·)
  | ':' :: rest => (readName? rest).map (false, ·)
  | _ => none
where
  /-- The text behind a name, a colon and a closing bracket. -/
  readName? (text : Text) : Option Text :=
    match text.dropWhile (· ≠ ':') with
    | ':' :: ']' :: rest =>
        if setNames.contains (text.takeWhile (· ≠ ':')) then some rest else none
    | _ => none

/-- Read what stands right behind an opening bracket: perhaps a caret, which asks for all other
characters.  Among bytes these would take in parts of characters. -/
def readCaret? (options : Options) (text : Text) : Option Text :=
  match options.skip text with
  | '^' :: rest => if options.unicode then some rest else none
  | rest => some rest

/-- Read a character or a kind of characters, or a range between two characters.  A hyphen in front
of another one or of the closing bracket makes no range. -/
def readMember? (options : Options) (text : Text) : Option Text := do
  let (first, rest) ← readAtom? options text
  match options.skip rest with
  | '-' :: behind =>
      if options.peek? behind = some ']' ∨ options.peek? behind = some '-' then
        single? first rest
      else
        let (last, rest) ← readAtom? options (options.skip behind)
        range? first last rest
  | _ => single? first rest
where
  /-- The text behind a single member. -/
  single? (atom : Atom) (rest : Text) : Option Text :=
    if options.allowsMember atom then some rest else none
  /-- The text behind a range. -/
  range? (first last : Atom) (rest : Text) : Option Text :=
    match first, last with
    | .char low _, .char high _ =>
        if options.allowsMember first ∧ options.allowsMember last ∧ low ≤ high then some rest
        else none
    | _, _ => none

/-- Read up to the closing bracket; `budget` bounds the number of members. -/
def readBracket? (options : Options) : Nat → Bracket → Text → Option (Nat × Text)
  | 0, _, _ => none
  | budget + 1, bracket, text =>
      match options.skip text with
      | [] => none
      | c :: rest =>
          if bracket.takes c then
            if options.allowsMember (.char c false) then
              readBracket? options budget { bracket.add 0 with fresh := c = '-' } rest
            else none
          else
            match c, rest with
            | ']', rest => some (bracket.height + 1, rest)
            | '&', '&' :: rest | '-', '-' :: rest | '~', '~' :: rest =>
                readBracket? options budget bracket.operate rest
            | '[', rest =>
                match readNamed? rest with
                | some (negated, rest) =>
                    if options.allowsNamed negated then
                      readBracket? options budget (bracket.add 0) rest
                    else none
                | none => do
                    let rest ← readCaret? options rest
                    let (height, rest) ← readBracket? options budget {} rest
                    readBracket? options budget (bracket.add height) rest
            | c, rest => do
                let rest ← readMember? options (c :: rest)
                readBracket? options budget (bracket.add 0) rest

/-- Read a set of characters, from the character behind its opening bracket on. -/
def readSet? (options : Options) (text : Text) : Option (Nat × Text) := do
  let rest ← readCaret? options text
  readBracket? options (rest.length + 1) {} rest

example : readSet? {} "^]a-z[:alpha:]&&[b]]c".toList = some (3, ['c']) := by decide
example : readSet? {} "b-a]".toList = none := by decide
example : readSet? {} "]".toList = none := by decide

end QueryLabel.Pattern
