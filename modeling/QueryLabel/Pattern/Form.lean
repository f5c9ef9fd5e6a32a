import QueryLabel.Pattern.Bracket
import QueryLabel.Text.Alphanumeric

/-!
The form of patterns: rows of items, alternatives between them, groups around them, and
repetitions of single items.  A pattern is refused if it is malformed, if it needs to know more
about characters than ASCII, if it is nested too deep, or if it looks for edges of words.
-/

namespace QueryLabel.Pattern

/-- What was read of a group: the items of the branch that is read and how high they are, the item
that a repetition would repeat, and the branches before and how high they are. -/
structure Branches where
  items : Nat := 0
  tallest : Nat := 0
  last : Option Nat := none
  finished : Nat := 0
  highest : Nat := 0
deriving Repr, DecidableEq

namespace Branches

/-- Add an item. -/
def add (branches : Branches) (height : Nat) : Branches :=
  { branches with
    items := branches.items + 1
    tallest := max branches.tallest height
    last := some height }

/-- Add a switch of options.  It is an item that cannot be repeated. -/
def addSwitch (branches : Branches) : Branches :=
  { branches with items := branches.items + 1, last := none }

/-- Repeat the last item. -/
def repeat? (branches : Branches) : Option Branches :=
  branches.last.map fun height =>
    { branches with
      tallest := max branches.tallest (height + 1)
      last := some (height + 1) }

/-- The height of the branch that is read; two items are a level of their own. -/
def rowHeight (branches : Branches) : Nat :=
  if 2 ≤ branches.items then branches.tallest + 1 else branches.tallest

/-- Go on with another branch. -/
def next (branches : Branches) : Branches :=
  { finished := branches.finished + 1
    highest := max branches.highest branches.rowHeight }

/-- The height of all branches; two of them are a level of their own. -/
def height (branches : Branches) : Nat :=
  if branches.finished = 0 then branches.rowHeight
  else max branches.highest branches.rowHeight + 1

end Branches

/-- What an opening parenthesis begins: options for the rest of the group around it, or a group with
options and perhaps a name. -/
inductive Opening
  | switch (options : Options)
  | group (options : Options) (name : Option Text)
deriving Repr, DecidableEq

/-- Whether a text is a name for a group. -/
def isGroupName : Text → Bool
  | [] => false
  | c :: rest =>
      (c = '_' || Text.isAlphabetic c) &&
        rest.all fun c => "_.[]".toList.contains c || Text.isAlphanumeric c

/-- Read the name of a group, and the sign that ends it. -/
def readName? (options : Options) (text : Text) : Option (Opening × Text) :=
  match text.dropWhile (· ≠ '>') with
  | [] => none
  | _ :: rest =>
      let name := text.takeWhile (· ≠ '>')
      if isGroupName name then some (.group options (some name), rest) else none

/-- Read letters that switch options, and the sign that ends them: a colon begins a group. -/
def readSwitch? (options : Options) (text : Text) : Option (Opening × Text) :=
  let isEnd (c : Char) : Bool := c = ':' || c = ')'
  let letters := text.takeWhile fun c => !isEnd c
  let switched := Options.switch true letters options
  if isSwitchRow letters then
    match text.dropWhile fun c => !isEnd c with
    | ':' :: rest => some (.group switched none, rest)
    | ')' :: rest => if letters = [] then none else some (.switch switched, rest)
    | _ => none
  else none

/-- Read the beginning of a group, behind its parenthesis. -/
def readOpening? (options : Options) (text : Text) : Option (Opening × Text) :=
  match options.skip text with
  | '?' :: 'P' :: '<' :: rest => readName? options rest
  | '?' :: '<' :: rest => readName? options rest
  | '?' :: rest => readSwitch? options rest
  | rest => some (.group options none, rest)

/-- A place in a pattern: the options there, the names of the groups before it, whether an edge of a
word of any characters was looked for, and the text behind it. -/
structure Place where
  options : Options := {}
  names : List Text := []
  wordEdges : Bool := false
  rest : Text
deriving Repr, DecidableEq

namespace Place

/-- Enter a group.  Two groups do not share a name. -/
def enter? (place : Place) (options : Options) (name : Option Text) (rest : Text) :
    Option Place :=
  match name with
  | none => some { place with options, rest }
  | some name =>
      if place.names.contains name then none
      else some { place with options, names := name :: place.names, rest }

/-- Leave a group for one around it, with its options. -/
def leave? (place : Place) (options : Options) : Option Place :=
  match place.rest with
  | ')' :: rest => some { place with options, rest }
  | _ => none

/-- Move over an atom or the sign for any character. -/
def atom? (place : Place) : Option Place :=
  match place.rest with
  | '.' :: rest => if place.options.unicode then some { place with rest } else none
  | '^' :: rest | '$' :: rest => some { place with rest }
  | text => do
      let (atom, rest) ← readAtom? place.options text
      let wordEdges := place.wordEdges || (atom = .edge true && place.options.unicode)
      if place.options.allows atom then some { place with wordEdges, rest } else none

end Place

/-- Drop the sign behind a repetition that makes it take as little as it can. -/
def dropLazy : Text → Text
  | '?' :: rest => rest
  | text => text

/-- Read branches up to a closing parenthesis or to the end; `budget` bounds the number of items.
The brace of a counted repetition is refused, because nothing closes it: a closing brace ends the
field that the pattern is for. -/
def readBranches? : Nat → Branches → Place → Option (Nat × Place)
  | 0, _, _ => none
  | budget + 1, branches, place =>
      match place.options.skip place.rest with
      | [] => some (branches.height, { place with rest := [] })
      | c :: rest =>
          match c with
          | ')' => some (branches.height, { place with rest := c :: rest })
          | '(' =>
              match readOpening? place.options rest with
              | none => none
              | some (.switch options, rest) =>
                  readBranches? budget branches.addSwitch { place with options, rest }
              | some (.group options name, rest) => do
                  let inner ← place.enter? options name rest
                  let (height, inner) ← readBranches? budget {} inner
                  let place ← inner.leave? place.options
                  readBranches? budget (branches.add (height + 1)) place
          | '|' => readBranches? budget branches.next { place with rest }
          | '[' => do
              let (height, rest) ← readSet? place.options rest
              readBranches? budget (branches.add height) { place with rest }
          | '?' | '*' | '+' => do
              let branches ← branches.repeat?
              readBranches? budget branches { place with rest := dropLazy rest }
          | '{' => none
          | c => do
              let place ← { place with rest := c :: rest }.atom?
              readBranches? budget (branches.add 0) place

/-- How deep a pattern may be nested. -/
def heightLimit : Nat := 250

/-- Why a pattern is refused. -/
inductive Refusal
  | malformed
  | wordEdge
deriving Repr, DecidableEq

/-- Why a text is refused as a pattern, if it is. -/
def refusal? (text : Text) : Option Refusal :=
  match readBranches? (text.length + 1) {} { rest := text } with
  | some (height, ⟨_, _, wordEdges, []⟩) =>
      if heightLimit < height then some .malformed
      else if wordEdges then some .wordEdge
      else none
  | _ => some .malformed

example : refusal? "a(b|[^]c])*?".toList = none := by decide
example : refusal? "(".toList = some .malformed := by decide
example : refusal? "*".toList = some .malformed := by decide
example : refusal? "[a".toList = some .malformed := by decide
example : refusal? "\\ba".toList = some .wordEdge := by decide
example : refusal? "(?-u)\\ba".toList = none := by decide

end QueryLabel.Pattern
