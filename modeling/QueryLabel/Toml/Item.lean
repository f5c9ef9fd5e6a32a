import QueryLabel.Binary64.Basic
import QueryLabel.Text.Basic

/-!
TOML documents as trees.  Every part knows where it was written, so that what is wrong with its
shape can be reported, and tables remember how they came to be, because that decides which later
lines may add to them.
-/

namespace QueryLabel.Toml

/-- A part of a document: the number of characters before it, and the number up to its end. -/
structure Span where
  start : Nat
  stop : Nat
deriving Repr, DecidableEq

/-- A key and where it was written. -/
structure Key where
  name : Text
  span : Span
deriving Repr, DecidableEq

/-- A value without parts. -/
inductive Scalar
  | string (text : Text)
  | integer (n : Int)
  | float (x : Binary64)
  | boolean (b : Bool)
  | datetime
deriving DecidableEq

/-- How a table came to be: written between braces, made for a name inside a header, or made for a
dotted key. -/
structure Form where
  inBraces : Bool
  implied : Bool
  dotted : Bool
deriving Repr, DecidableEq

/-- A part of a document.  Tables that were only implied have no place of their own. -/
inductive Item
  | scalar (span : Span) (value : Scalar)
  | array (span : Span) (items : List Item)
  | table (span : Option Span) (form : Form) (entries : List (Key × Item))
  | tables (span : Option Span) (items : List Item)

/-- The entries of a table in order. -/
abbrev Entries := List (Key × Item)

namespace Item

/-- Where a part was written. -/
def span? : Item → Option Span
  | scalar span _ => some span
  | array span _ => some span
  | table span _ _ => span
  | tables span _ => span

/-- The word for the type of a part. -/
def typeName : Item → String
  | scalar _ (.string _) => "string"
  | scalar _ (.integer _) => "integer"
  | scalar _ (.float _) => "float"
  | scalar _ (.boolean _) => "boolean"
  | scalar _ .datetime => "datetime"
  | array _ _ => "array"
  | table _ form _ => if form.inBraces then "inline table" else "table"
  | tables _ _ => "array of tables"

end Item

namespace Entries

/-- The part with this name. -/
def find? (name : Text) : Entries → Option Item
  | [] => none
  | (key, item) :: rest => if key.name = name then some item else find? name rest

/-- Entries without the one with this name. -/
def erase (name : Text) (entries : Entries) : Entries :=
  entries.filter fun entry => entry.1.name ≠ name

/-- Set an entry.  One that is there keeps its place and its key. -/
def put (key : Key) (item : Item) : Entries → Entries
  | [] => [(key, item)]
  | (k, old) :: rest =>
      if k.name = key.name then (k, item) :: rest else (k, old) :: put key item rest

end Entries

/-- Go down a path of keys from a table and change the entries found there.  Tables that are missing
on the way are made; a dotted path may enter only tables that are implied, and a list of tables is
entered at its last one. -/
def descend (form : Form) (leaf : Form → Entries → Option Entries) :
    List Key → Form → Entries → Option Entries
  | [], here, entries => leaf here entries
  | key :: path, _, entries => do
      let child ←
        match (Entries.find? key.name entries).getD (.table none form []) with
        | .table span here inner =>
            if here.inBraces ≠ form.inBraces ∨ (form.dotted ∧ ¬ here.implied) then none
            else
              let inner ← descend form leaf path here inner
              some (.table span here inner)
        | .tables span items =>
            match items.getLast? with
            | some (.table last here inner) =>
                let inner ← descend form leaf path here inner
                some (.tables span (items.dropLast ++ [.table last here inner]))
            | _ => none
        | _ => none
      some (Entries.put key child entries)

/-- Add a new entry.  A path of dotted keys has to end in a table that such a path made, and an
entry without a path belongs to a table that none made. -/
def addEntry (path : List Key) (key : Key) (item : Item) (here : Form) (entries : Entries) :
    Option Entries :=
  if here.dotted = path.isEmpty ∨ (Entries.find? key.name entries).isSome then none
  else some (entries ++ [(key, item)])

end QueryLabel.Toml
