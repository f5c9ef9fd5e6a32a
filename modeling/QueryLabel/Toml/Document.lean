import QueryLabel.Toml.Value

/-!
TOML documents.  A document is read line by line: a header opens a table, and the lines behind it
add entries to that table, which joins the others only when the next header begins.
-/

namespace QueryLabel.Toml

/-- The form of a table with a header of its own. -/
def Form.header : Form := ⟨false, false, false⟩

/-- The form of a table that a longer header implies. -/
def Form.impliedByHeader : Form := ⟨false, true, false⟩

/-- The form of a table that a dotted key makes. -/
def Form.dottedKey : Form := ⟨false, true, true⟩

/-- The table that lines are being added to. -/
structure Open where
  path : List Key
  key : Key
  isList : Bool
  span : Span

/-- A document as far as it was read: all tables that are closed, the header of the open one unless
it is the root, and the entries of the open one. -/
structure State where
  root : Entries
  current : Option Open
  entries : Entries

/-- The part at the end of a path, from the entries of a table on. -/
def lookUp? (path : List Key) (key : Key) (entries : Entries) : Option Item :=
  match path with
  | [] => Entries.find? key.name entries
  | next :: path =>
      match Entries.find? next.name entries with
      | some (.table _ _ inner) => lookUp? path key inner
      | some (.tables _ items) =>
          match items.getLast? with
          | some (.table _ _ inner) => lookUp? path key inner
          | _ => none
      | _ => none

/-- Change the entries of the table at the end of a path of headers. -/
def atHeader (path : List Key) (change : Entries → Option Entries) (root : Entries) :
    Option Entries :=
  descend .impliedByHeader (fun _ entries => change entries) path .header root

/-- The part of a document that some items cover, from the first one to the last one. -/
def cover (items : List Item) : Option Span := do
  let first ← (← items.head?).span?
  let last ← (← items.getLast?).span?
  some ⟨first.start, last.stop⟩

/-- Close the open table: it goes to the end of the entries of the table around it. -/
def State.close? (state : State) : Option Entries :=
  match state.current with
  | none => some state.entries
  | some header =>
      let table : Item := .table (some header.span) .header state.entries
      atHeader header.path
        (fun entries =>
          if header.isList then
            match Entries.find? header.key.name entries with
            | some (.tables _ items) =>
                let items := items ++ [table]
                some (Entries.put header.key (.tables (cover items) items) entries)
            | _ => none
          else some (entries ++ [(header.key, table)]))
        state.root

/-- Open a table.  One that was only implied keeps its entries and moves behind its neighbours; any
other one may not be opened again. -/
def State.openTable? (state : State) (path : List Key) (key : Key) (span : Span) :
    Option State := do
  let root ← state.close?
  let root ← atHeader path some root
  let inner ←
    match lookUp? path key root with
    | none => some []
    | some (.table _ form inner) =>
        if form.implied ∧ ¬ form.dotted ∧ ¬ form.inBraces then some inner else none
    | some _ => none
  let root ← atHeader path (fun entries => some (Entries.erase key.name entries)) root
  some ⟨root, some ⟨path, key, false, span⟩, inner⟩

/-- Open the next table of a list of tables. -/
def State.openListed? (state : State) (path : List Key) (key : Key) (span : Span) :
    Option State := do
  let root ← state.close?
  let root ←
    atHeader path
      (fun entries =>
        match Entries.find? key.name entries with
        | none => some (entries ++ [(key, .tables none [])])
        | some (.tables _ _) => some entries
        | some _ => none)
      root
  some ⟨root, some ⟨path, key, true, span⟩, []⟩

/-- Add an entry to the open table, whose place in the document grows up to it. -/
def State.add? (state : State) (a : Assignment) : Option State := do
  let entries ←
    descend .dottedKey (addEntry a.path a.key a.item) a.path .header state.entries
  let current := state.current.map fun header =>
    match a.item.span? with
    | some span => { header with span := ⟨header.span.start, span.stop⟩ }
    | none => header
  some { state with current, entries }

/-- Read a header, and open its table. -/
def State.readHeader? (state : State) (cursor : Cursor) : Option (State × Cursor) := do
  let listed := (cursor.expect? ['[', '[']).isSome
  let brackets := if listed then 2 else 1
  let (path, key, behind) ← readDottedKey? (cursor.drop brackets)
  let behind ← behind.expect? (List.replicate brackets ']')
  let span : Span := ⟨cursor.offset, behind.offset⟩
  let state ←
    if listed then state.openListed? path key span else state.openTable? path key span
  some (state, behind)

/-- Read a line with an entry, and add it. -/
def State.readEntry? (state : State) (cursor : Cursor) : Option (State × Cursor) := do
  let (assignment, behind) ← readAssignment? (readValue? (depthLimit - 1)) cursor
  some (← state.add? assignment, behind)

/-- Read lines up to the end of the document; `budget` bounds their number. -/
def readLines? (state : State) (cursor : Cursor) : Nat → Option State
  | 0 => none
  | budget + 1 =>
      let cursor := cursor.skipSpace
      match cursor.peek? with
      | none => some state
      | some c => do
          let (state, cursor) ←
            if c = '#' ∨ c = '\n' ∨ c = '\r' then some (state, cursor)
            else if c = '[' then state.readHeader? cursor
            else state.readEntry? cursor
          readLines? state (← cursor.trailing?) budget

/-- The entries of a document; nothing if it is malformed.  A byte order mark in front does not
count. -/
def parse? (document : Text) : Option Entries := do
  let cursor := (Cursor.mk 0 document).skipText ['\uFEFF']
  let state ← readLines? ⟨[], none, []⟩ cursor (document.length + 1)
  state.close?

end QueryLabel.Toml
