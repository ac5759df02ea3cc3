import Mathlib.Data.List.Basic
import Mathlib.Data.List.TakeDrop
import Mathlib.Tactic.SplitIfs
import XorOrbit.Json.Reader
import XorOrbit.Proofs.Json.Spelling

/-!
# Reading strings and numbers back

A reader that takes a value off the front of a text stops where the spelling of
the value does.  For strings this holds whatever follows, since the closing
quote ends them; a number ends only where the text goes on with neither a
digit, a point nor an exponent.
-/

namespace XorOrbit.Json

/-! ### What surrounds a value -/

theorem isBlank_iff {c : Char} :
    isBlank c = true ↔ c = ' ' ∨ c = '\n' ∨ c = '\t' ∨ c = '\r' := by
  simp [isBlank, or_assoc]

/-- A value may end here: the text is over, or it goes on with a blank, a comma
or a closing bracket. -/
def Ends (rest : List Char) : Prop :=
  ∀ c ∈ rest.head?, isBlank c ∨ c = ',' ∨ c = ']' ∨ c = '\x7d'

theorem ends_nil : Ends [] := by simp [Ends]

theorem Blank.ends_append {gap rest : List Char} (hgap : Blank gap)
    (hrest : Ends rest) : Ends (gap ++ rest) := by
  cases gap with
  | nil => exact hrest
  | cons c gap =>
      intro d hd
      obtain rfl : c = d := by simpa using hd
      exact .inl (hgap c (by simp))

theorem skipBlanks_append {gap rest : List Char} (hgap : Blank gap) :
    skipBlanks (gap ++ rest) = skipBlanks rest :=
  List.dropWhile_append_of_pos hgap

theorem skipBlanks_cons {c : Char} {rest : List Char}
    (hc : isBlank c = false) : skipBlanks (c :: rest) = c :: rest :=
  List.dropWhile_cons_of_neg (by simp [hc])

/-! ### Strings -/

theorem hexValue?_hexDigit {n : Nat} (hn : n < 16) :
    hexValue? (hexDigit n) = some n := by
  revert n
  decide

/-- The escape by code point is read as the character. -/
theorem scanCode_escape {c : Char} (hc : c.toNat < 0x20) (rest : List Char) :
    scanCode ('0' :: '0' :: hexDigit (c.toNat / 16) ::
      hexDigit (c.toNat % 16) :: rest) = .ok (c, rest) := by
  have hzero : hexValue? '0' = some 0 := by decide
  have hhigh : hexValue? (hexDigit (c.toNat / 16)) = some (c.toNat / 16) :=
    hexValue?_hexDigit (by omega)
  have hlow : hexValue? (hexDigit (c.toNat % 16)) = some (c.toNat % 16) :=
    hexValue?_hexDigit (by omega)
  have hhex : scanHex ('0' :: '0' :: hexDigit (c.toNat / 16) ::
      hexDigit (c.toNat % 16) :: rest) = .ok (c.toNat, rest) := by
    simp [scanHex, hzero, hhigh, hlow, Nat.div_add_mod']
  -- Control characters are far below the surrogates.
  have htrailing : ¬(0xDC00 ≤ c.toNat ∧ c.toNat ≤ 0xDFFF) := by omega
  have hleading : ¬(0xD800 ≤ c.toNat ∧ c.toNat ≤ 0xDBFF) := by omega
  unfold scanCode
  rw [hhex]
  simp [htrailing, hleading, bind, Except.bind, pure, Except.pure]

/-- A character as it is written is read in one round. -/
theorem scanStringFrom_escapeChar (rounds : Nat) (passed : List Char)
    (c : Char) (rest : List Char) :
    scanStringFrom (rounds + 1) passed (escapeChar c ++ rest) =
      scanStringFrom rounds (c :: passed) rest := by
  unfold escapeChar
  split_ifs with hquoted hn hr ht hb hf hcontrol
  · rcases hquoted with rfl | rfl <;> rfl
  · subst hn; rfl
  · subst hr; rfl
  · subst ht; rfl
  · subst hb; rfl
  · subst hf; rfl
  · have hcode := scanCode_escape hcontrol rest
    simp only [List.cons_append, List.nil_append, scanStringFrom, scanEscape]
    rw [hcode]
    rfl
  · rw [not_or] at hquoted
    rw [List.singleton_append, scanStringFrom]
    · rw [if_neg hcontrol]
    · exact hquoted.1
    · exact hquoted.2

/-- Reading goes through all characters up to the closing quote. -/
theorem scanStringFrom_escaped (rest : List Char) (chars : List Char) :
    ∀ (rounds : Nat) (passed : List Char), chars.length < rounds →
      scanStringFrom rounds passed (chars.flatMap escapeChar ++ '"' :: rest) =
        .ok (String.ofList (passed.reverse ++ chars), rest) := by
  induction chars with
  | nil =>
      rintro (_ | rounds) passed hrounds
      · exact absurd hrounds (Nat.lt_irrefl 0)
      · simp [scanStringFrom]
  | cons c chars ih =>
      rintro (_ | rounds) passed hrounds
      · exact absurd hrounds (Nat.not_lt_zero _)
      · rw [List.flatMap_cons, List.append_assoc, scanStringFrom_escapeChar,
          ih rounds (c :: passed) (Nat.lt_of_succ_lt_succ hrounds)]
        simp

theorem length_le_length_escaped (chars : List Char) :
    chars.length ≤ (chars.flatMap escapeChar).length := by
  induction chars with
  | nil => simp
  | cons c chars ih =>
      have hpos : 0 < (escapeChar c).length := by
        unfold escapeChar
        split_ifs <;> simp
      simp only [List.flatMap_cons, List.length_append, List.length_cons]
      omega

/-- A string is read back from what stands after its opening quote. -/
theorem scanString_escaped (value : String) (rest : List Char) :
    scanString (value.toList.flatMap escapeChar ++ '"' :: rest) =
      .ok (value, rest) := by
  have hlength := length_le_length_escaped value.toList
  unfold scanString
  rw [scanStringFrom_escaped]
  · simp
  · simp only [List.length_append, List.length_cons]
    omega

/-! ### Numbers -/

/-- The digits of a number that is not zero do not start with a zero. -/
theorem head?_toDigits_ne_zero (n : Nat) (hn : 0 < n) :
    (Nat.toDigits 10 n).head? ≠ some '0' := by
  induction n using Nat.strongRecOn with
  | ind n ih =>
      rcases Nat.lt_or_ge n 10 with hsmall | hlarge
      · have hdigit : ∀ m < 10, 0 < m → m.digitChar ≠ '0' := by decide
        simpa [Nat.toDigits_of_lt_base hsmall] using hdigit n hsmall hn
      · rw [Nat.toDigits_of_base_le (by decide) hlarge,
          List.head?_append_of_ne_nil _ Nat.toDigits_ne_nil]
        exact ih (n / 10) (by omega) (by omega)

/-- Digits are taken as long as the number stays within 64 bits. -/
theorem absorb_of_lt (digits : List Char) : ∀ value : Nat,
    Nat.ofDigitChars 10 digits value < UInt64.size →
      absorb value digits = (Nat.ofDigitChars 10 digits value, []) := by
  induction digits with
  | nil => intro value _; simp [absorb]
  | cons digit digits ih =>
      intro value hlt
      -- The number only grows, so it is within 64 bits at every digit.
      have hgrow : 10 * value + digitValue digit ≤
          Nat.ofDigitChars 10 digits (10 * value + digitValue digit) := by
        rw [Nat.ofDigitChars_eq_ofDigitChars_zero]
        have hpow : 0 < 10 ^ digits.length := Nat.pow_pos (by decide)
        exact Nat.le_add_right_of_le (Nat.le_mul_of_pos_left _ hpow)
      rw [Nat.ofDigitChars_cons] at hlt ⊢
      rw [absorb]
      exact (if_pos (Nat.lt_of_le_of_lt hgrow hlt)).trans (ih _ hlt)

/-- Where a value ends, a number does. -/
theorem Ends.not_numeric {rest : List Char} (hrest : Ends rest) :
    ∀ c ∈ rest.head?,
      c.isDigit = false ∧ c ≠ '.' ∧ isExponentMark c = false := by
  intro c hc
  rcases hrest c hc with hc | rfl | rfl | rfl
  · rcases isBlank_iff.mp hc with rfl | rfl | rfl | rfl <;> decide
  all_goals decide

/-- The digits of a number are all the digits there are. -/
theorem span_toDigits (n : Nat) {rest : List Char} (hrest : Ends rest) :
    (Nat.toDigits 10 n ++ rest).span Char.isDigit =
      (Nat.toDigits 10 n, rest) := by
  have hdigits : ∀ c ∈ Nat.toDigits 10 n, c.isDigit = true :=
    fun c hc => Nat.isDigit_of_mem_toDigits (by decide) (by decide) hc
  rw [List.span_eq_takeWhile_dropWhile,
    List.takeWhile_append_of_pos hdigits, List.dropWhile_append_of_pos hdigits]
  cases rest with
  | nil => simp
  | cons c rest =>
      have hc := (hrest.not_numeric c rfl).1
      simp [hc]

/-- Nothing but digits makes a whole number. -/
theorem scanAfterWhole_ends (n : Nat) {rest : List Char} (hrest : Ends rest) :
    scanAfterWhole false n 0 rest = .ok (.natural n, rest) := by
  cases rest with
  | nil => rfl
  | cons c rest =>
      obtain ⟨_, hpoint, hmark⟩ := hrest.not_numeric c rfl
      simp [scanAfterWhole, hpoint, hmark, wholeNumber, bind, Except.bind, pure,
        Except.pure]

/-- Digits without a leading zero are read as far as they fit. -/
theorem scanMagnitude_of_span {text digits rest : List Char} (negative : Bool)
    (hspan : text.span Char.isDigit = (digits, rest)) (hsome : digits ≠ [])
    (hzero : digits.head? = some '0' → digits = ['0']) :
    scanMagnitude negative text =
      scanAfterWhole negative (absorb 0 digits).1 (absorb 0 digits).2.length
        rest := by
  unfold scanMagnitude
  rw [hspan]
  dsimp only
  split
  · exact absurd rfl hsome
  · exact absurd (hzero rfl) (by simp)
  · rfl

theorem isBlank_of_isDigit {c : Char} (hc : c.isDigit = true) :
    isBlank c = false := by
  by_contra hblank
  rcases isBlank_iff.mp (eq_true_of_ne_false hblank) with
    rfl | rfl | rfl | rfl <;> exact absurd hc (by decide)

theorem exists_toDigits_eq_cons (n : Nat) :
    ∃ c digits, Nat.toDigits 10 n = c :: digits ∧ c.isDigit = true := by
  obtain ⟨c, digits, hdigits⟩ :=
    List.exists_cons_of_ne_nil (Nat.toDigits_ne_nil (n := n) (b := 10))
  have hmem : c ∈ Nat.toDigits 10 n := by simp [hdigits]
  exact ⟨c, digits, hdigits,
    Nat.isDigit_of_mem_toDigits (by decide) (by decide) hmem⟩

/-- A number of at most 64 bits without a sign is read back from its digits. -/
theorem scanMagnitude_toDigits {n : Nat} (hn : n < UInt64.size)
    {rest : List Char} (hrest : Ends rest) :
    scanMagnitude false (Nat.toDigits 10 n ++ rest) =
      .ok (.natural n, rest) := by
  have hvalue : Nat.ofDigitChars 10 (Nat.toDigits 10 n) 0 = n :=
    Nat.ofDigitChars_ten_toDigits
  have habsorb : absorb 0 (Nat.toDigits 10 n) = (n, []) := by
    rw [absorb_of_lt _ 0 (hvalue.symm ▸ hn), hvalue]
  rw [scanMagnitude_of_span false (span_toDigits n hrest)
    Nat.toDigits_ne_nil, habsorb]
  · exact scanAfterWhole_ends n hrest
  · intro hhead
    rcases Nat.eq_zero_or_pos n with rfl | hpos
    · rfl
    · exact absurd hhead (head?_toDigits_ne_zero n hpos)

theorem scanNumber_of_isDigit {c : Char} (hc : c.isDigit = true)
    (text : List Char) :
    scanNumber (c :: text) = scanMagnitude false (c :: text) := by
  unfold scanNumber
  split
  · rename_i hminus
    rw [(List.cons.inj hminus).1] at hc
    exact absurd hc (by decide)
  · rfl

/-! ### Readers -/

/-- The reader takes `result` off the front of a text wherever the value is
spelled there, whatever blanks precede it, and leaves what follows. -/
def Reader.Reads (reader : Reader α) (value : Value) (result : α) : Prop :=
  ∀ ⦃gap text rest : List Char⦄, Blank gap → value.Spelled text → Ends rest →
    reader (gap ++ (text ++ rest)) = .ok (result, rest)

namespace Reader

theorem reads_string (value : String) :
    Reads string (.string value) value := by
  intro gap text rest hgap htext hrest
  cases htext
  rw [string, stringOr, skipBlanks_append hgap]
  simp only [quote, List.cons_append, List.append_assoc]
  rw [skipBlanks_cons (by decide)]
  exact scanString_escaped value rest

theorem reads_boolean (value : Bool) :
    Reads boolean (.boolean value) value := by
  intro gap text rest hgap htext hrest
  cases htext
  rw [boolean, skipBlanks_append hgap]
  cases value with
  | true => rfl
  | false => rfl

theorem reads_natural {value : Nat} (hvalue : value < UInt64.size) :
    Reads natural (.natural value) value := by
  intro gap text rest hgap htext hrest
  obtain rfl : text = Nat.toDigits 10 value := by cases htext; rfl
  have hmagnitude := scanMagnitude_toDigits hvalue hrest
  obtain ⟨c, digits, hdigits, hc⟩ := exists_toDigits_eq_cons value
  rw [hdigits, List.cons_append] at hmagnitude ⊢
  rw [natural, skipBlanks_append hgap,
    skipBlanks_cons (isBlank_of_isDigit hc)]
  simp [hc, scanNumber_of_isDigit, hmagnitude, bind, Except.bind, pure,
    Except.pure]

end Reader

end XorOrbit.Json
