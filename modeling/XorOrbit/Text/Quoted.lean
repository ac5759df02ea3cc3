import XorOrbit.Text.Unprintable

/-!
# Quoted text

How texts, symbols and lists are shown inside messages: between quotes, with
escapes for the quote itself, the backslash and everything that would not show.
Escapes by number give the code point in lowercase hexadecimal without leading
zeros.
-/

namespace XorOrbit.Quoted

/-- The digits of a number in lowercase hexadecimal. -/
def hex (n : Nat) : List Char := Nat.toDigits 16 n

/-- One character as it is shown between the given quotes. -/
def escape (quote c : Char) : List Char :=
  if c = quote || c = '\\' then ['\\', c]
  else if c = '\n' then ['\\', 'n']
  else if c = '\t' then ['\\', 't']
  else if c = '\r' then ['\\', 'r']
  else if c.toNat = 0 then ['\\', '0']
  else if Unprintable.holds c then
    ['\\', 'u', '\x7b'] ++ hex c.toNat ++ ['\x7d']
  else [c]

/-- A text in double quotes. -/
def text (s : String) : String :=
  String.ofList ('"' :: s.toList.flatMap (escape '"') ++ ['"'])

/-- A character in single quotes. -/
def character (c : Char) : String :=
  String.ofList ('\'' :: escape '\'' c ++ ['\''])

/-- Items in brackets, separated by commas. -/
def list (items : List String) : String :=
  "[" ++ ", ".intercalate items ++ "]"

/-- A list of texts. -/
def texts (items : List String) : String := list (items.map text)

/-- A list of characters. -/
def characters (items : List Char) : String := list (items.map character)

end XorOrbit.Quoted
