import QueryLabel.Toml.Number

/-!
Values of TOML documents.  Arrays may go over several lines, tables between braces stay on one, and
both may be nested up to a limit.
-/

namespace QueryLabel.Toml

/-- The form of a table between braces. -/
def Form.braces : Form := ⟨true, false, false⟩

/-- The form of a table that a dotted key makes between braces. -/
def Form.bracesDotted : Form := ⟨true, true, true⟩

/-- Read the items of an array up to its closing bracket; `budget` bounds their number. -/
def readItems? (readItem? : Cursor → Option (Item × Cursor)) (cursor : Cursor) :
    Nat → Option (List Item × Cursor)
  | 0 => none
  | budget + 1 => do
      let (item, cursor) ← readItem? cursor.skipBlankLines
      let cursor := cursor.skipBlankLines
      let behind := cursor.skipText [',']
      let next := behind.skipBlankLines
      if next.peek? = some ']' then some ([item], next.drop 1)
      else if behind = cursor then none
      else
        let (items, cursor) ← readItems? readItem? behind budget
        some (item :: items, cursor)

/-- An entry of a table between braces: the path in front of its key, the key, and its value. -/
structure Assignment where
  path : List Key
  key : Key
  item : Item

/-- Read a key, an equals sign and a value. -/
def readAssignment? (readItem? : Cursor → Option (Item × Cursor)) (cursor : Cursor) :
    Option (Assignment × Cursor) := do
  let (path, key, cursor) ← readDottedKey? cursor
  let cursor ← cursor.expect? ['=']
  let (item, cursor) ← readItem? cursor.skipSpace
  some (⟨path, key, item⟩, cursor)

/-- Read the entries of a table between braces up to its closing brace; `budget` bounds their
number. -/
def readAssignments? (readItem? : Cursor → Option (Item × Cursor)) (cursor : Cursor) :
    Nat → Option (List Assignment × Cursor)
  | 0 => none
  | budget + 1 => do
      let (assignment, cursor) ← readAssignment? readItem? cursor
      let cursor := cursor.skipSpace
      match cursor.peek? with
      | some '}' => some ([assignment], cursor.drop 1)
      | some ',' =>
          let (assignments, cursor) ← readAssignments? readItem? (cursor.drop 1) budget
          some (assignment :: assignments, cursor)
      | _ => none

/-- Put entries one after the other into a table between braces. -/
def buildBraces? : List Assignment → Entries → Option Entries
  | [], entries => some entries
  | a :: rest, entries => do
      let entries ←
        descend .bracesDotted (addEntry a.path a.key a.item) a.path .braces entries
      buildBraces? rest entries

/-- Read the rest of an array, behind its opening bracket. -/
def readArray? (readItem? : Cursor → Option (Item × Cursor)) (cursor : Cursor) :
    Option (List Item × Cursor) :=
  let inner := cursor.skipBlankLines
  if inner.peek? = some ']' then some ([], inner.drop 1)
  else readItems? readItem? cursor (cursor.rest.length + 1)

/-- Read the rest of a table between braces, behind the opening one. -/
def readBraces? (readItem? : Cursor → Option (Item × Cursor)) (cursor : Cursor) :
    Option (Entries × Cursor) := do
  let inner := cursor.skipSpace
  if inner.peek? = some '}' then some ([], inner.drop 1)
  else
    let (assignments, cursor) ← readAssignments? readItem? cursor (cursor.rest.length + 1)
    some (← buildBraces? assignments [], cursor)

/-- Read a value that has no parts. -/
def readScalar? (cursor : Cursor) : Option (Scalar × Cursor) :=
  match cursor.peek? with
  | some '"' | some '\'' => (readString? cursor).map fun r => (.string r.1, r.2)
  | some 't' => (cursor.expect? "true".toList).map (.boolean true, ·)
  | some 'f' => (cursor.expect? "false".toList).map (.boolean false, ·)
  | _ => readNumber? cursor

/-- Read a value; arrays and tables may be nested `depth` deep in it. -/
def readValue? : Nat → Cursor → Option (Item × Cursor)
  | 0, cursor =>
      match cursor.peek? with
      | some '[' | some '{' => none
      | _ => (readScalar? cursor).map fun r => (.scalar ⟨cursor.offset, r.2.offset⟩ r.1, r.2)
  | depth + 1, cursor =>
      match cursor.peek? with
      | some '[' =>
          (readArray? (readValue? depth) (cursor.drop 1)).map fun r =>
            (.array ⟨cursor.offset, r.2.offset⟩ r.1, r.2)
      | some '{' =>
          (readBraces? (readValue? depth) (cursor.drop 1)).map fun r =>
            (.table (some ⟨cursor.offset, r.2.offset⟩) .braces r.1, r.2)
      | _ => (readScalar? cursor).map fun r => (.scalar ⟨cursor.offset, r.2.offset⟩ r.1, r.2)

end QueryLabel.Toml
