import XorOrbit.Json.StringLiteral

/-!
# JSON values and their texts

Values as they are written: members keep their order.  There are two texts of a
value, one without any blanks and one that puts every element and member on a
line of its own, indented by two spaces a level.
-/

namespace XorOrbit.Json

/-- A JSON value; its numbers are integers. -/
inductive Value
  | null
  | boolean (value : Bool)
  | number (value : Int)
  | string (value : String)
  | array (items : List Value)
  | object (members : List (String × Value))

namespace Value

/-- A natural number. -/
def natural (value : Nat) : Value := .number value

/-- A string of one character. -/
def character (value : Char) : Value := .string (String.singleton value)

/-- A list of strings. -/
def strings (values : List String) : Value := .array (values.map .string)

/-- The text of a value without lists and objects in it. -/
def scalarText : Value → List Char
  | boolean true => ['t', 'r', 'u', 'e']
  | boolean false => ['f', 'a', 'l', 's', 'e']
  | number (.ofNat n) => Nat.toDigits 10 n
  | number (.negSucc n) => '-' :: Nat.toDigits 10 (n + 1)
  | string s => quote s
  | _ => ['n', 'u', 'l', 'l']

mutual

/-- The text without blanks. -/
def compact : Value → List Char
  | array items => '[' :: compactItems items ++ [']']
  | object members => '\x7b' :: compactMembers members ++ ['\x7d']
  | scalar => scalar.scalarText

/-- The items of a list, separated by commas. -/
def compactItems : List Value → List Char
  | [] => []
  | item :: items =>
    compact item ++ (if items.isEmpty then [] else [',']) ++
      compactItems items

/-- The members of an object, separated by commas. -/
def compactMembers : List (String × Value) → List Char
  | [] => []
  | (name, value) :: members =>
    quote name ++ ':' :: compact value ++
      (if members.isEmpty then [] else [',']) ++ compactMembers members

end

/-- The start of a line with the indentation of the given level. -/
def newLine (level : Nat) : List Char :=
  '\n' :: List.replicate (2 * level) ' '

mutual

/-- The indented text, whose first line starts at the given level. -/
def indented (level : Nat) : Value → List Char
  | array [] => ['[', ']']
  | array items =>
    '[' :: indentedItems (level + 1) items ++ newLine level ++ [']']
  | object [] => ['\x7b', '\x7d']
  | object members =>
    '\x7b' :: indentedMembers (level + 1) members ++ newLine level ++ ['\x7d']
  | scalar => scalar.scalarText

/-- The items of a list, one a line. -/
def indentedItems (level : Nat) : List Value → List Char
  | [] => []
  | item :: items =>
    newLine level ++ indented level item ++
      (if items.isEmpty then [] else [',']) ++ indentedItems level items

/-- The members of an object, one a line. -/
def indentedMembers (level : Nat) : List (String × Value) → List Char
  | [] => []
  | (name, value) :: members =>
    newLine level ++ quote name ++ ':' :: ' ' :: indented level value ++
      (if members.isEmpty then [] else [',']) ++ indentedMembers level members

end

/-- The text without blanks. -/
def text (value : Value) : String := String.ofList value.compact

/-- The text with a line for every element and member. -/
def prettyText (value : Value) : String := String.ofList (value.indented 0)

end Value

end XorOrbit.Json
