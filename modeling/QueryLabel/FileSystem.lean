import QueryLabel.Text.Utf8

/-!
What a run asks of a file system: the text of a file, and whether a path leads anywhere.
-/

namespace QueryLabel

/-- Why a file could not be read. -/
inductive FileSystem.ReadError
  | notFound
  | other (message : String)
deriving Repr, DecidableEq

/-- A file system, as far as a run looks at it. -/
structure FileSystem where
  readText : String → Except FileSystem.ReadError Text
  pathExists : String → Bool

namespace FileSystem

/-- The text in the bytes of a file. -/
def decodeText (bytes : List UInt8) : Except ReadError Text :=
  match Utf8.decode? bytes with
  | some text => .ok text
  | none => .error (.other "stream did not contain valid UTF-8")

/-- A file system of which only one text is known. -/
def unseen (text : Except ReadError Text) : FileSystem :=
  ⟨fun _ => text, fun _ => false⟩

end FileSystem

end QueryLabel
