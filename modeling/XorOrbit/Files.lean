import XorOrbit.Error

/-!
# File trees

A tree of files as it is seen from a working directory, and how paths lead
through it: `.` stays where it is, `..` goes up, and both, like every other
step, are only possible from a directory.  A path that starts with a slash
starts at the top of the file system.  Outside the tree nothing is known but
the directories on the way from that top down to the tree.
-/

namespace XorOrbit

/-- The files of a tree and the directories that hold none, each with the names
on the way to it. -/
structure Files where
  files : List (List String × ByteArray)
  emptyDirectories : List (List String)

/-- What a path leads to. -/
inductive Located
  | file (content : ByteArray)
  | directory (way : List String)
  /-- A directory outside the tree, of whose content nothing is known. -/
  | outside

namespace Files

/-- The directories and files that the tree consists of, as ways from its
root. -/
def ways (tree : Files) : List (List String) :=
  tree.files.map (·.1) ++ tree.emptyDirectories

/-- Whether the way leads to a directory: to the root, an empty directory or
one with something in it. -/
def isDirectory (tree : Files) (way : List String) : Bool :=
  way.isEmpty || tree.emptyDirectories.contains way ||
    tree.ways.any fun other => way.isPrefixOf other && way != other

/-- What a way without dots leads to. -/
def at? (tree : Files) (way : List String) : Option Located :=
  match tree.files.lookup way with
  | some content => some (.file content)
  | none => if tree.isDirectory way then some (.directory way) else none

/-- The largest number of bytes in a name. -/
def maxNameSize : Nat := 255

/-- The largest number of bytes in a path. -/
def maxPathSize : Nat := 4095

/-- Takes one step of a path. -/
def follow (tree : Files) (place : Located) (name : String) :
    Except ReadFault Located :=
  match place with
  | .file _ => .error .notDirectory
  | .outside =>
    if name = "" ∨ name = "." ∨ name = ".." then .ok place
    else if maxNameSize < name.utf8ByteSize then .error .nameTooLong
    else .error .notFound
  | .directory way =>
    if name = "" ∨ name = "." then .ok place
    else if name = ".." then
      .ok (if way.isEmpty then .outside else .directory way.dropLast)
    else if maxNameSize < name.utf8ByteSize then .error .nameTooLong
    else
      match tree.at? (way ++ [name]) with
      | some place => .ok place
      | none => .error .notFound

/-- Where a path starts. -/
def start (path : String) : Located :=
  if path.startsWith "/" then .outside else .directory []

/-- What a path leads to. -/
def locate (tree : Files) (path : String) : Except ReadFault Located :=
  if path.toList.contains '\x00' then .error .zeroByte
  else if maxPathSize < path.utf8ByteSize then .error .nameTooLong
  else if path.isEmpty then .error .notFound
  else (path.splitOn "/").foldlM tree.follow (start path)

/-- The text of the file that a path leads to. -/
def read (tree : Files) (path : String) : Except ReadFault String := do
  match ← tree.locate path with
  | .directory _ | .outside => throw .isDirectory
  | .file content =>
    match String.fromUTF8? content with
    | some text => return text
    | none => throw .notText

/-- The names in a directory in code point order, and whether each is a
file. -/
def list (tree : Files) (way : List String) : List (String × Bool) :=
  let names := tree.ways.filterMap fun other =>
    if way.isPrefixOf other then other[way.length]? else none
  let sorted := (names.mergeSort (· ≤ ·)).eraseDups
  sorted.map fun name =>
    (name, (tree.files.lookup (way ++ [name])).isSome)

end Files

end XorOrbit
