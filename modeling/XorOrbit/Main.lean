import XorOrbit.CommandLine.Run

/-!
# The executable

Reads the one file that the options may name, and prints what
`CommandLine.run` answers.
-/

open XorOrbit CommandLine

/-- Reads a file from disk. -/
def readFromDisk (path : String) : IO (Except ReadFault String) := do
  try
    let content ← IO.FS.readBinFile path
    match String.fromUTF8? content with
    | some text => return .ok text
    | none => return .error .notText
  catch
    | .inappropriateType _ code _ =>
      return .error (if code = 21 then .isDirectory else .notDirectory)
    | .invalidArgument .. => return .error .nameTooLong
    | _ => return .error .notFound

/-- The file that the arguments name, if they are well formed. -/
def configPath? (arguments : List String) : Option String :=
  match Options.ofArguments arguments with
  | .ok options => options.config
  | .error _ => none

def main (arguments : List String) : IO UInt32 := do
  let content ← match configPath? arguments with
    | some path => readFromDisk path
    | none => pure (.error .notFound)
  let ending := run (fun _ => content) arguments
  IO.print ending.output
  IO.eprint ending.errors
  return ending.code.toUInt32
