import XorOrbit.Files
import XorOrbit.Generator.Json

/-!
# Loading generators from files

A generator is loaded from one file, or all generators of a directory at once:
one from each of its files whose name ends in `.json`, in the order of their
names.
-/

namespace XorOrbit.Generator

/-- Loads a generator from a file, given how files are read. -/
def load (read : String → Except ReadFault String) (path : String) :
    Except Error Generator :=
  match read path with
  | .error fault => .error (.unreadable path fault)
  | .ok text => ofText text

/-- What follows the last dot of a file name, unless that is its first
character. -/
def extension? (name : String) : Option String :=
  let chars := name.toList.reverse
  match chars.dropWhile (· != '.') with
  | _ :: _ :: _ =>
    some (String.ofList (chars.takeWhile (· != '.')).reverse)
  | _ => none

/-- The path of a name in a directory. -/
def pathIn (directory name : String) : String :=
  if directory.endsWith "/" then directory ++ name
  else directory ++ "/" ++ name

/-- Loads all generators of a directory, each with the path of its file or the
reason why it could not be loaded. -/
def loadAll (tree : Files) (directory : String) :
    List (Except Error (String × Generator)) :=
  match tree.locate directory with
  | .error _ => [.error (.noDirectory directory)]
  | .ok (.file _) => [.error (.unlistable directory .notDirectory)]
  | .ok .outside => []
  | .ok (.directory way) =>
    let names := (tree.list way).filter fun (name, isFile) =>
      isFile && extension? name == some "json"
    names.map fun (name, _) =>
      let path := pathIn directory name
      match load tree.read path with
      | .ok generator => .ok (path, generator)
      | .error cause => .error (.unloadable path cause)

end XorOrbit.Generator
