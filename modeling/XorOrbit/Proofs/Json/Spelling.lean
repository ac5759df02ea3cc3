import XorOrbit.Json.Skip
import XorOrbit.Json.Value

/-!
# Spellings of values

The texts of a value differ in the blanks between their parts only.  A spelling
is any such text; the text without blanks and the indented one are both
spellings.  What is said about reading holds for all of them.
-/

namespace XorOrbit.Json

/-- The row consists of blanks. -/
def Blank (row : List Char) : Prop := ∀ c ∈ row, isBlank c = true

theorem blank_nil : Blank [] := by simp [Blank]

theorem blank_newLine (level : Nat) : Blank (Value.newLine level) := by
  intro c hc
  rcases List.mem_cons.mp hc with rfl | hc
  · rfl
  · rw [List.eq_of_mem_replicate hc]
    rfl

/-- What stands between an element and the one before it: a comma, unless it is
the first element. -/
inductive Separator : Bool → List Char → Prop
  | start : Separator true []
  | comma {gap : List Char} : Blank gap → Separator false (gap ++ [','])

/-- The text spells the elements that follow in a list or an object, up to its
closing bracket; the flag tells whether the first of them is the first one of
all. -/
inductive Listed (spelled : α → List Char → Prop) :
    Bool → List α → List Char → Prop
  | nil {first : Bool} {gap : List Char} :
      Blank gap → Listed spelled first [] gap
  | cons {first : Bool} {separator gap text rest : List Char} {x : α}
      {xs : List α} :
      Separator first separator → Blank gap → spelled x text →
      Listed spelled false xs rest →
      Listed spelled first (x :: xs) (separator ++ (gap ++ (text ++ rest)))

mutual

/-- The text is a spelling of the value. -/
inductive Value.Spelled : Value → List Char → Prop
  | null : Value.Spelled .null (Value.scalarText .null)
  | boolean (value : Bool) :
      Value.Spelled (.boolean value) (Value.scalarText (.boolean value))
  | number (value : Int) :
      Value.Spelled (.number value) (Value.scalarText (.number value))
  | string (value : String) : Value.Spelled (.string value) (quote value)
  | array {items : List Value} {text : List Char} :
      Listed Value.Spelled true items text →
      Value.Spelled (.array items) ('[' :: (text ++ [']']))
  | object {members : List (String × Value)} {text : List Char} :
      Listed Value.MemberSpelled true members text →
      Value.Spelled (.object members) ('\x7b' :: (text ++ ['\x7d']))

/-- The text is a spelling of the member of an object. -/
inductive Value.MemberSpelled : String × Value → List Char → Prop
  | mk {name : String} {value : Value} {before after text : List Char} :
      Blank before → Blank after → Value.Spelled value text →
      Value.MemberSpelled (name, value)
        (quote name ++ (before ++ ':' :: (after ++ text)))

end

/-- The comma that a writer has put before what is left of a list, unless
nothing is left or nothing has been written. -/
def leadingComma (first last : Bool) : List Char :=
  if first || last then [] else [',']

theorem separator_leadingComma (first : Bool) :
    Separator first (leadingComma first false) := by
  cases first with
  | true => exact .start
  | false => exact Separator.comma blank_nil

/-! ### The text without blanks -/

mutual

/-- The text without blanks is a spelling. -/
theorem Value.spelled_compact : (value : Value) → value.Spelled value.compact
  | .null => .null
  | .boolean value => .boolean value
  | .number value => .number value
  | .string value => .string value
  | .array items => by
      simpa [Value.compact, leadingComma] using
        Value.Spelled.array (Value.listed_compactItems items true)
  | .object members => by
      simpa [Value.compact, leadingComma] using
        Value.Spelled.object (Value.listed_compactMembers members true)

theorem Value.listed_compactItems : (items : List Value) → (first : Bool) →
    Listed Value.Spelled first items
      (leadingComma first items.isEmpty ++ Value.compactItems items)
  | [], _ => by
      simpa [Value.compactItems, leadingComma] using Listed.nil blank_nil
  | item :: items, first => by
      have hall := Listed.cons (separator_leadingComma first) blank_nil
        item.spelled_compact (Value.listed_compactItems items false)
      simpa [Value.compactItems, leadingComma] using hall

theorem Value.listed_compactMembers : (members : List (String × Value)) →
    (first : Bool) → Listed Value.MemberSpelled first members
      (leadingComma first members.isEmpty ++ Value.compactMembers members)
  | [], _ => by
      simpa [Value.compactMembers, leadingComma] using Listed.nil blank_nil
  | (name, value) :: members, first => by
      have hmember : Value.MemberSpelled (name, value) _ :=
        .mk blank_nil blank_nil value.spelled_compact
      have hall := Listed.cons (separator_leadingComma first) blank_nil hmember
        (Value.listed_compactMembers members false)
      simpa [Value.compactMembers, leadingComma] using hall

end

/-! ### The indented text -/

theorem blank_space : Blank [' '] := by simp [Blank, isBlank]

mutual

/-- The indented text is a spelling. -/
theorem Value.spelled_indented (level : Nat) :
    (value : Value) → value.Spelled (value.indented level)
  | .null => .null
  | .boolean value => .boolean value
  | .number value => .number value
  | .string value => .string value
  | .array [] => Value.Spelled.array (.nil blank_nil)
  | .array (item :: items) => by
      have hall := Value.Spelled.array (Value.listed_indentedItems (level + 1)
        (blank_newLine level) (item :: items) true)
      simpa [Value.indented, leadingComma] using hall
  | .object [] => Value.Spelled.object (.nil blank_nil)
  | .object (member :: members) => by
      have hall := Value.Spelled.object (Value.listed_indentedMembers
        (level + 1) (blank_newLine level) (member :: members) true)
      simpa [Value.indented, leadingComma] using hall

-- The line of the closing bracket belongs to the list, but its level is not
-- that of the items; hence the blanks after them are any blanks.
theorem Value.listed_indentedItems (level : Nat) {trail : List Char}
    (htrail : Blank trail) : (items : List Value) → (first : Bool) →
    Listed Value.Spelled first items (leadingComma first items.isEmpty ++
      (Value.indentedItems level items ++ trail))
  | [], _ => by
      simpa [Value.indentedItems, leadingComma] using Listed.nil htrail
  | item :: items, first => by
      have hall := Listed.cons (separator_leadingComma first)
        (blank_newLine level) (item.spelled_indented level)
        (Value.listed_indentedItems level htrail items false)
      simpa [Value.indentedItems, leadingComma] using hall

theorem Value.listed_indentedMembers (level : Nat) {trail : List Char}
    (htrail : Blank trail) : (members : List (String × Value)) →
    (first : Bool) → Listed Value.MemberSpelled first members
      (leadingComma first members.isEmpty ++
        (Value.indentedMembers level members ++ trail))
  | [], _ => by
      simpa [Value.indentedMembers, leadingComma] using Listed.nil htrail
  | (name, value) :: members, first => by
      have hmember : Value.MemberSpelled (name, value) _ :=
        .mk blank_nil blank_space (value.spelled_indented level)
      have hall := Listed.cons (separator_leadingComma first)
        (blank_newLine level) hmember
        (Value.listed_indentedMembers level htrail members false)
      simpa [Value.indentedMembers, leadingComma] using hall

end

end XorOrbit.Json
