import QueryLabel.Toml.Item

/-!
Reports of what is wrong in a document: the line with the part that is wrong, marks below that
part, and the reason.
-/

namespace QueryLabel.Toml

/-- The number of bytes that spell a text. -/
def byteLength (text : Text) : Nat :=
  text.foldl (fun n c => n + c.utf8Size) 0

/-- The characters of a document before a place, split at the beginning of its last line: the number
of lines before that one, and the number of characters on it. -/
def lineAndColumn (before : Text) : Nat × Nat :=
  before.foldl
    (fun (line, column) c => if c = '\n' then (line + 1, 0) else (line, column + 1)) (0, 0)

/-- The line of a document that holds a place, up to its line feed. -/
def lineAt (document : Text) (place column : Nat) : Text :=
  (document.drop (place - column)).takeWhile (· ≠ '\n')

/-- The report about a part of a document.  There is a mark for each byte of the part as far as the
line goes, and at least one. -/
def report (document : Text) (span : Span) (reason : String) : String :=
  let (line, column) := lineAndColumn (document.take span.start)
  let content := lineAt document span.start column
  let number := toString (line + 1)
  let gutter := String.ofList (List.replicate (number.length + 1) ' ')
  let marked := byteLength ((document.take span.stop).drop span.start)
  let marks := max 1 (min marked (byteLength content - column))
  s!"TOML parse error at line {line + 1}, column {column + 1}\n" ++
    gutter ++ "|\n" ++
    number ++ " | " ++ String.ofList content ++ "\n" ++
    gutter ++ "|" ++ String.ofList (List.replicate (column + 1) ' ') ++
    String.ofList (List.replicate marks '^') ++ "\n" ++
    reason ++ "\n"

end QueryLabel.Toml
