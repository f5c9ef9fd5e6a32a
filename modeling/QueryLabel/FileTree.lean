import QueryLabel.FileSystem

/-!
File systems that are known as a whole: the files below a working directory, and what a path leads
to.
-/

namespace QueryLabel

/-- A file with its bytes, or a directory. -/
inductive FileContent
  | file (bytes : List UInt8)
  | directory
deriving Repr, DecidableEq

/-- The files and directories below a working directory, each with the names that lead to it.  The
directories on the way to them exist as well. -/
structure FileTree where
  entries : List (List String × FileContent)

namespace FileTree

/-- The greatest number of bytes of a name. -/
def nameLimit : Nat := 255

/-- The greatest number of bytes of a path. -/
def pathLimit : Nat := 4095

/-- What a path leads to. -/
inductive Target
  | file (bytes : List UInt8)
  | directory
  | missing
  | notDirectory
  | tooLong
  | holdsNul
deriving Repr, DecidableEq

/-- What some names lead to from the working directory. -/
def contentAt (tree : FileTree) (names : List String) : Option FileContent :=
  if names = [] then some .directory
  else
    match tree.entries.find? (·.1 = names) with
    | some (_, content) => some content
    | none =>
        if tree.entries.any fun entry => names.isPrefixOf entry.1 then some .directory else none

/-- Where a walk along a path has come: to a directory below the working directory, or to one
above it, of which nothing else is known. -/
inductive Place
  | inside (names : List String)
  | above
deriving Repr, DecidableEq

/-- Walk along the names of a path. -/
def walk (tree : FileTree) : Place → List String → Target
  | .inside names, [] =>
      match tree.contentAt names with
      | some (.file bytes) => .file bytes
      | some .directory => .directory
      | none => .missing
  | .above, [] => .directory
  | place, name :: rest =>
      let isDirectory : Bool :=
        match place with
        | .above => true
        | .inside names => tree.contentAt names = some .directory
      if ¬ isDirectory then .notDirectory
      else if name = "" ∨ name = "." then tree.walk place rest
      else if nameLimit < name.utf8ByteSize then .tooLong
      else
        match place with
        | .above => if name = ".." then tree.walk .above rest else .missing
        | .inside names =>
            if name = ".." then
              tree.walk (if names = [] then .above else .inside names.dropLast) rest
            else if (tree.contentAt (names ++ [name])).isNone then .missing
            else tree.walk (.inside (names ++ [name])) rest

/-- The names between the slashes of a path. -/
def names (path : String) : List String :=
  split path.toList
where
  /-- Split at slashes. -/
  split (text : List Char) : List String :=
    (text.foldr
      (fun c parts =>
        if c = '/' then [] :: parts
        else
          match parts with
          | [] => [[c]]
          | part :: rest => (c :: part) :: rest)
      [[]]).map String.ofList

/-- What a path leads to.  A path that begins with a slash leaves the working directory. -/
def find (tree : FileTree) (path : String) : Target :=
  if path.toList.contains '\x00' then .holdsNul
  else if path = "" then .missing
  else if pathLimit < path.utf8ByteSize then .tooLong
  else tree.walk (if path.toList.head? = some '/' then .above else .inside []) (names path)

/-- Whether a path leads to a file or a directory. -/
def pathExists (tree : FileTree) (path : String) : Bool :=
  match tree.find path with
  | .file _ | .directory => true
  | .missing | .notDirectory | .tooLong | .holdsNul => false

/-- The text of the file at a path. -/
def readText (tree : FileTree) (path : String) : Except FileSystem.ReadError Text :=
  match tree.find path with
  | .missing => .error .notFound
  | .directory => .error (.other "Is a directory (os error 21)")
  | .notDirectory => .error (.other "Not a directory (os error 20)")
  | .tooLong => .error (.other "File name too long (os error 36)")
  | .holdsNul => .error (.other "file name contained an unexpected NUL byte")
  | .file bytes => FileSystem.decodeText bytes

/-- A tree of files as a file system. -/
def toFileSystem (tree : FileTree) : FileSystem :=
  ⟨tree.readText, tree.pathExists⟩

end FileTree

end QueryLabel
