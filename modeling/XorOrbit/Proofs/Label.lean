import Mathlib.Data.List.Nodup
import XorOrbit.Alphabet

/-!
# Labels of states

The local names of states are words of small letters and numbers, joined by
underscores.  A label is such a name before it is written out.  Since neither
letters nor digits contain an underscore, a name can be split again, so
different labels have different names whatever their numbers are.
-/

namespace XorOrbit

namespace Part

/-- The text consists of small letters and is not empty, which is found out by
evaluating the condition. -/
structure IsWord (text : String) : Prop where
  evaluated :
    if text ≠ "" ∧ text.toList.all Char.isLower = true then True else False

end Part

/-- A piece of a label. -/
inductive Part
  -- The proof is the same term for all words, so that no label depends on where
  -- else its words are written.
  | word (text : String) (plain : Part.IsWord text := by exact ⟨trivial⟩)
  | index (number : Nat)
deriving DecidableEq

namespace Part

theorem IsWord.spec {text : String} (plain : IsWord text) :
    text ≠ "" ∧ ∀ symbol ∈ text.toList, symbol.isLower = true := by
  have hevaluated := plain.evaluated
  split at hevaluated
  · rename_i hword
    exact ⟨hword.1, List.all_eq_true.mp hword.2⟩
  · contradiction

/-- The number that stands for a bit. -/
def bit (value : Bool) : Part := index value.toNat

/-- The piece written out. -/
def chars : Part → List Char
  | word text _ => text.toList
  | index number => Nat.toDigits 10 number

@[simp] theorem chars_word (text : String) (plain : IsWord text) :
    (word text plain).chars = text.toList := rfl

@[simp] theorem chars_index (number : Nat) :
    (index number).chars = Nat.toDigits 10 number := rfl

/-- A bit is written as its symbol. -/
@[simp] theorem chars_bit (value : Bool) :
    (bit value).chars = [Symbol.ofBit value] := by
  cases value <;> rfl

theorem bit_injective : Function.Injective bit := by
  intro first second heq
  have hnat : first.toNat = second.toNat := Part.index.inj heq
  revert hnat
  cases first <;> cases second <;> simp

@[simp] theorem bit_inj {first second : Bool} :
    bit first = bit second ↔ first = second :=
  bit_injective.eq_iff

theorem chars_ne_nil (part : Part) : part.chars ≠ [] := by
  cases part with
  | word text plain => simpa [chars] using plain.spec.1
  | index number => exact Nat.toDigits_ne_nil

theorem isLower_of_mem_chars_word {text : String} {plain : IsWord text}
    {symbol : Char} (hsymbol : symbol ∈ (word text plain).chars) :
    symbol.isLower = true :=
  plain.spec.2 symbol hsymbol

theorem isDigit_of_mem_chars_index {number : Nat} {symbol : Char}
    (hsymbol : symbol ∈ (index number).chars) : symbol.isDigit = true :=
  Nat.isDigit_of_mem_toDigits (by decide) (by decide) hsymbol

/-- A symbol that is neither a small letter nor a digit is in no piece. -/
theorem notMem_chars {symbol : Char} (hlower : symbol.isLower = false)
    (hdigit : symbol.isDigit = false) (part : Part) :
    symbol ∉ part.chars := by
  intro hmem
  cases part with
  | word text plain =>
      rw [isLower_of_mem_chars_word hmem] at hlower
      contradiction
  | index number =>
      rw [isDigit_of_mem_chars_index hmem] at hdigit
      contradiction

theorem chars_word_ne_chars_index (text : String) (plain : IsWord text)
    (number : Nat) :
    (word text plain).chars ≠ (index number).chars := by
  intro heq
  obtain ⟨symbol, hsymbol⟩ :=
    List.exists_mem_of_ne_nil _ (chars_ne_nil (word text plain))
  have hlower : 'a'.val ≤ symbol.val := of_decide_eq_true
    (Bool.and_eq_true_iff.mp (isLower_of_mem_chars_word hsymbol)).1
  have hdigit : symbol.val ≤ '9'.val := of_decide_eq_true
    (Bool.and_eq_true_iff.mp
      (isDigit_of_mem_chars_index (heq ▸ hsymbol))).2
  exact absurd (UInt32.le_trans hlower hdigit) (by decide)

theorem chars_injective : Function.Injective chars := by
  intro first second heq
  cases first with
  | word text plain =>
      cases second with
      | word text' plain' =>
          obtain rfl := String.toList_inj.mp heq
          rfl
      | index number =>
          exact absurd heq (chars_word_ne_chars_index text plain number)
  | index number =>
      cases second with
      | word text plain =>
          exact absurd heq.symm (chars_word_ne_chars_index text plain number)
      | index number' =>
          have hread := congrArg (Nat.ofDigitChars 10 · 0) heq
          simp only [chars, Nat.ofDigitChars_ten_toDigits] at hread
          rw [hread]

end Part

/-- The pieces of a local name. -/
abbrev Label := List Part

namespace Label

/-- The local name: the pieces, joined by underscores. -/
def name (label : Label) : String :=
  String.ofList (['_'].intercalate (label.map Part.chars))

@[simp] theorem name_word (text : String) (plain : Part.IsWord text) :
    name [.word text plain] = text := by
  simp [name, List.intercalate]

@[simp] theorem name_word_word (text text' : String)
    (plain : Part.IsWord text) (plain' : Part.IsWord text') :
    name [.word text plain, .word text' plain'] = text ++ "_" ++ text' := by
  simp [← String.toList_inj, name, List.intercalate]

@[simp] theorem name_word_bit (text : String)
    (plain : Part.IsWord text) (value : Bool) :
    name [.word text plain, .bit value] =
      text ++ "_" ++ toString (Symbol.ofBit value) := by
  simp [← String.toList_inj, name, List.intercalate, toString]

theorem splitOn_name {label : Label} (hlabel : label ≠ []) :
    label.name.toList.splitOn '_' = label.map Part.chars := by
  rw [name, String.toList_ofList, List.splitOn_intercalate]
  · intro chars hchars
    obtain ⟨part, -, rfl⟩ := List.mem_map.mp hchars
    exact Part.notMem_chars (by decide) (by decide) part
  · simpa using hlabel

theorem dot_notMem_name (label : Label) : '.' ∉ label.name.toList := by
  have hpart : ∀ part : Part, '.' ∉ part.chars :=
    Part.notMem_chars (by decide) (by decide)
  rw [name, String.toList_ofList]
  induction label with
  | nil => simp
  | cons part label ih =>
      cases label with
      | nil => simpa using hpart part
      | cons next label =>
          simpa [List.intercalate_cons_cons] using ⟨hpart part, ih⟩

theorem name_ne_empty {label : Label} (hlabel : label ≠ []) :
    label.name ≠ "" := by
  intro hname
  have hsplit := splitOn_name hlabel
  rw [hname] at hsplit
  cases label with
  | nil => exact hlabel rfl
  | cons part label =>
      simp only [String.toList_empty, List.splitOn_nil, List.map_cons,
        List.cons.injEq] at hsplit
      exact part.chars_ne_nil hsplit.1.symm

/-- Different labels have different names. -/
theorem name_injective : Function.Injective name := by
  intro first second heq
  by_cases hfirst : first = []
  · subst hfirst
    by_contra hne
    exact name_ne_empty (Ne.symm hne) (heq.symm.trans rfl)
  · by_cases hsecond : second = []
    · subst hsecond
      exact absurd (heq.trans rfl) (name_ne_empty hfirst)
    · have hsplit : first.map Part.chars = second.map Part.chars := by
        rw [← splitOn_name hfirst, heq, splitOn_name hsecond]
      exact Part.chars_injective.list_map hsplit

/-- The label with its numbers left out. -/
def shape (label : Label) : List (Option String) :=
  label.map fun
    | .word text _ => some text
    | .index _ => none

/-- Labels of different shapes are different. -/
theorem disjoint_of_shape {first second : List Label}
    (shapes shapes' : List (List (Option String)))
    (hfirst : ∀ label ∈ first, label.shape ∈ shapes)
    (hsecond : ∀ label ∈ second, label.shape ∈ shapes')
    (hshapes : ∀ shape ∈ shapes, shape ∉ shapes') : first.Disjoint second :=
  fun label hmem hmem' =>
    hshapes _ (hfirst label hmem) (hsecond label hmem')

/-- Families of labels do not overlap if the second piece of a label tells to
which of them it belongs.  The label without pieces counts as one of number
zero. -/
theorem nodup_flatMap_range {labels : Nat → List Label} {count : Nat}
    (hnodup : ∀ number < count, (labels number).Nodup)
    (hnumber : ∀ number, ∀ label ∈ labels number,
      label.getD 1 (.index 0) = .index number) :
    ((List.range count).flatMap labels).Nodup := by
  rw [List.nodup_flatMap]
  refine ⟨fun number hmem => hnodup number (List.mem_range.mp hmem), ?_⟩
  refine List.Pairwise.imp ?_ List.nodup_range
  intro first second hne label hfirst hsecond
  have heq : Part.index first = Part.index second :=
    (hnumber first label hfirst).symm.trans (hnumber second label hsecond)
  exact hne (Part.index.inj heq)

end Label

end XorOrbit
