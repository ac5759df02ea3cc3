import XorOrbit.Json.Fault
import XorOrbit.Program.Defect

/-!
# Errors

Every operation of the library that can fail reports one of these causes, and
`Error.message` is the only place that puts them into words.
-/

namespace XorOrbit

/-- What is wrong with the parameters of a generator. -/
inductive GeneratorFault
  | emptySeed
  | strayCharacter (found : Char)
  | zeroWordLength
deriving DecidableEq

/-- The fault in words. -/
def GeneratorFault.message : GeneratorFault → String
  | emptySeed => "seed must not be empty"
  | strayCharacter found =>
    "seed may only contain '0' and '1', found '" ++ found.toString ++ "'"
  | zeroWordLength => "word length must be at least 1"

/-- Why the text of a file could not be had. -/
inductive ReadFault
  | notFound
  | isDirectory
  | notDirectory
  | nameTooLong
  | zeroByte
  | notText
deriving DecidableEq

/-- The fault in words. -/
def ReadFault.message : ReadFault → String
  | notFound => "No such file or directory (os error 2)"
  | isDirectory => "Is a directory (os error 21)"
  | notDirectory => "Not a directory (os error 20)"
  | nameTooLong => "File name too long (os error 36)"
  | zeroByte => "file name contained an unexpected NUL byte"
  | notText => "stream did not contain valid UTF-8"

/-- A request for a preset that the catalog does not have. -/
inductive CatalogFault
  | noIndex (index : Nat)
  | noName (name : String)
  | noText (index : Nat)
deriving DecidableEq

/-- The fault in words. -/
def CatalogFault.message : CatalogFault → String
  | noIndex index => "Preset index " ++ toString index ++ " out of range"
  | noName name => "Preset '" ++ name ++ "' not found"
  | noText index => "Preset text index " ++ toString index ++ " out of range"

/-- The causes of failure. -/
inductive Error
  /-- Two fragments define a state, or one gives it two rules for a symbol. -/
  | stateRedefined (state : String)
  | invalidGenerator (fault : GeneratorFault)
  | defective (defect : Defect)
  | noPreset (fault : CatalogFault)
  | unreadable (path : String) (fault : ReadFault)
  | noDirectory (path : String)
  | unlistable (path : String) (fault : ReadFault)
  /-- A file of a directory could not be loaded. -/
  | unloadable (path : String) (cause : Error)
  | malformed (fault : Json.Fault)
deriving DecidableEq

namespace Error

/-- The error in words. -/
def message : Error → String
  | stateRedefined state =>
    "State '" ++ state ++ "' is defined by more than one fragment"
  | invalidGenerator fault => "Invalid configuration: " ++ fault.message
  | defective defect => "Program validation error: " ++ defect.message
  | noPreset fault => "Program validation error: " ++ fault.message
  | unreadable path fault =>
    "File error: Failed to read file " ++ path ++ ": " ++ fault.message
  | noDirectory path =>
    "File error: Directory " ++ path ++ " does not exist"
  | unlistable path fault =>
    "File error: Failed to read directory " ++ path ++ ": " ++ fault.message
  | unloadable path cause =>
    "File error: Failed to load config from " ++ path ++ ": " ++ cause.message
  | malformed fault => "Configuration parsing error: " ++ fault.message

end Error

end XorOrbit
