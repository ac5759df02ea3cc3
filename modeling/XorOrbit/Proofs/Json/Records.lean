import Mathlib.Data.List.Nodup
import XorOrbit.Json.Record
import XorOrbit.Proofs.Json.Scalars

/-!
# Reading lists and records back

A list is read back when its items are, and a record when its fields are.  The
members of a record may come in any order, and those of optional fields may be
left out: reading then keeps what the blank record holds for them.
-/

namespace XorOrbit.Json

/-! ### Where values start and end -/

/-- A value starts with a character that is neither a blank nor a closing
bracket. -/
theorem Value.Spelled.starts {value : Value} {text : List Char}
    (htext : value.Spelled text) :
    ∃ c rest, text = c :: rest ∧ isBlank c = false ∧ c ≠ ']' := by
  cases htext with
  | null => exact ⟨_, _, rfl, by decide, by decide⟩
  | boolean value =>
      cases value with
      | true => exact ⟨_, _, rfl, by decide, by decide⟩
      | false => exact ⟨_, _, rfl, by decide, by decide⟩
  | number value =>
      cases value with
      | ofNat n =>
          obtain ⟨c, digits, hdigits, hc⟩ := exists_toDigits_eq_cons n
          refine ⟨c, digits, hdigits, isBlank_of_isDigit hc, ?_⟩
          rintro rfl
          exact absurd hc (by decide)
      | negSucc n => exact ⟨_, _, rfl, by decide, by decide⟩
  | string value => exact ⟨_, _, rfl, by decide, by decide⟩
  | array hitems => exact ⟨_, _, rfl, by decide, by decide⟩
  | object hmembers => exact ⟨_, _, rfl, by decide, by decide⟩

theorem Value.Spelled.starts_append {value : Value} {text : List Char}
    (htext : value.Spelled text) (rest : List Char) :
    ∃ c tail, text ++ rest = c :: tail ∧ isBlank c = false ∧ c ≠ ']' := by
  obtain ⟨c, tail, rfl, hc⟩ := htext.starts
  exact ⟨c, tail ++ rest, rfl, hc⟩

theorem ends_bracket (rest : List Char) : Ends (']' :: rest) := by
  simp [Ends]

theorem ends_brace (rest : List Char) : Ends ('\x7d' :: rest) := by
  simp [Ends]

theorem Separator.ends_append {separator : List Char}
    (hseparator : Separator false separator) (rest : List Char) :
    Ends (separator ++ rest) := by
  cases hseparator with
  | comma hgap =>
      rw [List.append_assoc]
      exact hgap.ends_append (by simp [Ends])

/-- After an element, its value has ended. -/
theorem Listed.ends_append {spelled : α → List Char → Prop} {xs : List α}
    {text rest : List Char} (htext : Listed spelled false xs text)
    (hrest : Ends rest) : Ends (text ++ rest) := by
  cases htext with
  | nil hgap => exact hgap.ends_append hrest
  | cons hseparator =>
      rw [List.append_assoc]
      exact hseparator.ends_append _

/-- Every element takes at least one character. -/
theorem Listed.length_le {spelled : α → List Char → Prop}
    (hpos : ∀ {x text}, spelled x text → 0 < text.length) {first : Bool}
    {xs : List α} {text : List Char} (htext : Listed spelled first xs text) :
    xs.length ≤ text.length := by
  induction htext with
  | nil => exact Nat.zero_le _
  | cons _ _ hx _ ih =>
      have hlength := hpos hx
      simp only [List.length_append, List.length_cons]
      omega

theorem Value.Spelled.length_pos {value : Value} {text : List Char}
    (htext : value.Spelled text) : 0 < text.length := by
  obtain ⟨c, rest, rfl, -⟩ := htext.starts
  exact Nat.succ_pos _

theorem Value.MemberSpelled.length_pos {member : String × Value}
    {text : List Char} (htext : Value.MemberSpelled member text) :
    0 < text.length := by
  cases htext
  exact Nat.succ_pos _

namespace Reader

/-! ### Sequences of readers -/

theorem bind_of_ok {first : Reader α} {next : α → Reader β}
    {text rest : List Char} {value : α}
    (hfirst : first text = .ok (value, rest)) :
    (first >>= next) text = next value rest := by
  show (first text >>= fun result => next result.1 result.2) = _
  rw [hfirst]
  rfl

theorem get_bind (next : List Char → Reader β) (text : List Char) :
    (get >>= next) text = next text text := rfl

theorem Reads.map {reader : Reader α} {value : Value} {result : α}
    (hreader : Reads reader value result) (f : α → β) :
    Reads (do return f (← reader)) value (f result) := by
  intro gap text rest hgap htext hrest
  exact bind_of_ok (hreader hgap htext hrest)

/-! ### Lists -/

/-- Before an item the comma is read, if there has to be one. -/
theorem moreElements_of_separator {first : Bool}
    {separator gap text : List Char} (hseparator : Separator first separator)
    (hgap : Blank gap)
    (htext : ∃ c rest, text = c :: rest ∧ isBlank c = false ∧ c ≠ ']') :
    moreElements first (separator ++ (gap ++ text)) = .ok (true, text) := by
  obtain ⟨c, rest, rfl, hblank, hbracket⟩ := htext
  cases hseparator with
  | start => simp [moreElements, skipBlanks_append hgap, skipBlanks_cons hblank]
  | comma hbefore =>
      have hcomma : isBlank ',' = false := by decide
      simp [moreElements, skipBlanks_append hbefore, skipBlanks_append hgap,
        skipBlanks_cons hcomma, skipBlanks_cons hblank, hbracket]

theorem moreElements_of_bracket {gap : List Char} (first : Bool)
    (hgap : Blank gap) (rest : List Char) :
    moreElements first (gap ++ ']' :: rest) = .ok (false, ']' :: rest) := by
  rw [moreElements, skipBlanks_append hgap, skipBlanks_cons (by decide)]
  rfl

/-- The items of a list are read one after the other, latest first. -/
theorem elementsFrom_spelled {element : Reader α} {toJson : α → Value}
    (rest : List Char) (xs : List α) :
    (∀ x ∈ xs, Reads element (toJson x) x) →
    ∀ {text : List Char} (rounds : Nat) (first : Bool) (passed : List α),
      Listed Value.Spelled first (xs.map toJson) text → xs.length < rounds →
      elementsFrom (fun passed => do return (← element) :: passed) rounds first
        passed (text ++ ']' :: rest) =
          .ok (xs.reverse ++ passed, ']' :: rest) := by
  induction xs with
  | nil =>
      rintro - text (_ | rounds) first passed htext hrounds
      · exact absurd hrounds (Nat.lt_irrefl 0)
      · obtain hgap | _ := htext
        exact bind_of_ok (moreElements_of_bracket first hgap rest)
  | cons x xs ih =>
      rintro hreads text (_ | rounds) first passed htext hrounds
      · exact absurd hrounds (Nat.not_lt_zero _)
      · rw [List.forall_mem_cons] at hreads
        obtain _ | ⟨hseparator, hgap, hitem, hitems⟩ := htext
        rw [List.append_assoc, List.append_assoc, List.append_assoc]
        refine (bind_of_ok (moreElements_of_separator hseparator hgap
          (hitem.starts_append _))).trans ?_
        have hread := (hreads.1.map (· :: passed)) blank_nil hitem
          (hitems.ends_append (ends_bracket rest))
        refine (bind_of_ok hread).trans ?_
        rw [ih hreads.2 rounds false (x :: passed) hitems
          (Nat.lt_of_succ_lt_succ hrounds)]
        simp

theorem openList_spelled {gap : List Char} (hgap : Blank gap)
    (expected : String) (rest : List Char) :
    openList expected (gap ++ '[' :: rest) = .ok ((), rest) := by
  rw [openList, skipBlanks_append hgap, skipBlanks_cons (by decide)]
  rfl

theorem closeList_bracket (rest : List Char) :
    closeList (']' :: rest) = .ok ((), rest) := rfl

/-- A list is read back when each of its items is. -/
theorem reads_list {element : Reader α} {toJson : α → Value} {xs : List α}
    (hreads : ∀ x ∈ xs, Reads element (toJson x) x) :
    Reads (list element) (.array (xs.map toJson)) xs := by
  intro gap text rest hgap htext hrest
  cases htext with
  | array hitems =>
      rename_i text
      have hlength := hitems.length_le Value.Spelled.length_pos
      simp only [List.length_map] at hlength
      simp only [List.cons_append, List.append_assoc, List.nil_append]
      have hfold : fold (fun passed => do return (← element) :: passed) []
          (gap ++ '[' :: (text ++ ']' :: rest)) = .ok (xs.reverse, rest) := by
        refine (bind_of_ok (openList_spelled hgap _ _)).trans ?_
        refine (get_bind _ _).trans ?_
        refine (bind_of_ok (elementsFrom_spelled rest xs hreads _ true []
          hitems ?_)).trans ?_
        · simp only [List.length_append]
          omega
        · rw [List.append_nil]
          exact bind_of_ok (closeList_bracket rest)
      refine (bind_of_ok hfold).trans ?_
      rw [List.reverse_reverse]
      rfl

/-! ### Members -/

/-- Before a member the comma is read, if there has to be one, and the quote of
its name. -/
theorem moreMembers_of_separator {first : Bool}
    {separator gap : List Char} (hseparator : Separator first separator)
    (hgap : Blank gap) (rest : List Char) :
    moreMembers first (separator ++ (gap ++ '"' :: rest)) =
      .ok (true, rest) := by
  have hquote : isBlank '"' = false := by decide
  cases hseparator with
  | start => simp [moreMembers, skipBlanks_append hgap, skipBlanks_cons hquote]
  | comma hbefore =>
      have hcomma : isBlank ',' = false := by decide
      simp [moreMembers, skipBlanks_append hbefore, skipBlanks_append hgap,
        skipBlanks_cons hcomma, skipBlanks_cons hquote]

theorem moreMembers_of_brace {gap : List Char} (first : Bool)
    (hgap : Blank gap) (rest : List Char) :
    moreMembers first (gap ++ '\x7d' :: rest) =
      .ok (false, '\x7d' :: rest) := by
  rw [moreMembers, skipBlanks_append hgap, skipBlanks_cons (by decide)]
  rfl

theorem colon_spelled {gap : List Char} (hgap : Blank gap)
    (rest : List Char) : colon (gap ++ ':' :: rest) = .ok ((), rest) := by
  rw [colon, skipBlanks_append hgap, skipBlanks_cons (by decide)]
  rfl

theorem closeObject_brace (rest : List Char) :
    closeObject ('\x7d' :: rest) = .ok ((), rest) := rfl

end Reader

/-! ### Records -/

/-- The value given for a field, and what reading it does to a record. -/
structure Entry (α : Type) where
  name : String
  value : Value
  set : α → α

/-- The entry as a member of an object. -/
def Entry.member (entry : Entry α) : String × Value := (entry.name, entry.value)

/-- The field reads the value of the entry, into any record. -/
structure Field.Takes (field : Field α) (entry : Entry α) : Prop where
  name_eq : field.name = entry.name
  reads : ∀ record, Reader.Reads (field.fill record) entry.value
    (entry.set record)

namespace RecordShape

variable {shape : RecordShape α} {fields : List (Field α)}
  {entries kept : List (Entry α)}

/-- The entries are all there is to a record: they belong to the fields of the
shape in their order. -/
structure Given (shape : RecordShape α) (entries : List (Entry α)) : Prop where
  nodup : (entries.map (·.name)).Nodup
  takes : List.Forall₂ Field.Takes shape.fields entries

/-- All fields are given. -/
theorem mem_names_of_takes
    (htakes : List.Forall₂ Field.Takes fields entries) :
    ∀ field ∈ fields, field.name ∈ entries.map (·.name) := by
  induction htakes with
  | nil => simp
  | cons hfield _ ih =>
      rw [List.forall_mem_cons, List.map_cons]
      refine ⟨by simp [hfield.name_eq], ?_⟩
      intro field hmem
      exact List.mem_cons_of_mem _ (ih field hmem)

/-- The field of an entry is the one of its name. -/
theorem find?_of_takes
    (htakes : List.Forall₂ Field.Takes fields entries) :
    (entries.map (·.name)).Nodup → ∀ entry ∈ entries,
      ∃ field, fields.find? (·.name == entry.name) = some field ∧
        field.Takes entry := by
  induction htakes with
  | nil => simp
  | @cons field entry fields entries hfield hfields ih =>
      rw [List.map_cons, List.nodup_cons, List.forall_mem_cons]
      rintro ⟨hnew, hnodup⟩
      refine ⟨⟨field, ?_, hfield⟩, ?_⟩
      · simp [hfield.name_eq]
      · intro other hother
        obtain ⟨field', hfind, htakes⟩ := ih hnodup other hother
        have hne : entry.name ≠ other.name := by
          intro heq
          exact hnew (heq ▸ List.mem_map_of_mem hother)
        exact ⟨field', by simpa [hfield.name_eq, hne] using hfind, htakes⟩

/-- A member is read into its field. -/
theorem member_of_given (hgiven : shape.Given entries) {entry : Entry α}
    (hentry : entry ∈ entries)
    {filling : Filling α} (hnew : entry.name ∉ filling.filled)
    {before after text rest : List Char} (hbefore : Blank before)
    (hafter : Blank after) (htext : entry.value.Spelled text)
    (hrest : Ends rest) :
    shape.member entry.name filling
        (before ++ ':' :: (after ++ (text ++ rest))) =
      .ok (⟨entry.set filling.record, entry.name :: filling.filled⟩, rest) := by
  obtain ⟨field, hfind, htakes⟩ :=
    find?_of_takes hgiven.takes hgiven.nodup entry hentry
  have hcontains : filling.filled.contains entry.name = false := by
    simpa using hnew
  unfold member
  simp only [hfind, hcontains]
  refine (Reader.bind_of_ok (Reader.colon_spelled hbefore _)).trans ?_
  exact Reader.bind_of_ok (htakes.reads filling.record hafter htext hrest)

/-- The record after the entries have been read into it, one by one. -/
def fill (record : α) (entries : List (Entry α)) : α :=
  entries.foldl (fun record entry => entry.set record) record

/-- The members of an object are read one after the other, as long as no name
comes twice. -/
theorem membersFrom_spelled (hgiven : shape.Given entries) (rest : List Char)
    (kept : List (Entry α)) :
    (∀ entry ∈ kept, entry ∈ entries) →
    ∀ {text : List Char} (rounds : Nat) (first : Bool) (filling : Filling α),
      (kept.map (·.name) ++ filling.filled).Nodup →
      Listed Value.MemberSpelled first (kept.map Entry.member) text →
      kept.length < rounds →
      Reader.membersFrom shape.member rounds first filling
          (text ++ '\x7d' :: rest) =
        .ok (⟨fill filling.record kept,
          (kept.map (·.name)).reverse ++ filling.filled⟩, '\x7d' :: rest) := by
  induction kept with
  | nil =>
      rintro - text (_ | rounds) first filling - htext hrounds
      · exact absurd hrounds (Nat.lt_irrefl 0)
      · obtain hgap | _ := htext
        exact Reader.bind_of_ok (Reader.moreMembers_of_brace first hgap rest)
  | cons entry kept ih =>
      rintro hkept text (_ | rounds) first filling hnodup htext hrounds
      · exact absurd hrounds (Nat.not_lt_zero _)
      · rw [List.forall_mem_cons] at hkept
        obtain _ | ⟨hseparator, hgap, hmember, hmembers⟩ := htext
        obtain ⟨hbefore, hafter, hvalue⟩ := hmember
        simp only [quote, List.append_assoc, List.cons_append,
          List.nil_append]
        refine (Reader.bind_of_ok (Reader.moreMembers_of_separator
          hseparator hgap _)).trans ?_
        refine (Reader.bind_of_ok (scanString_escaped _ _)).trans ?_
        -- The names to come and those already read are apart, so this one has
        -- not been read; afterwards it counts among the latter.
        have hnew : entry.name ∉ filling.filled := by
          intro hfilled
          exact (List.nodup_cons.mp hnodup).1 (List.mem_append_right _ hfilled)
        have hread := member_of_given hgiven hkept.1 hnew hbefore hafter hvalue
          (hmembers.ends_append (ends_brace rest))
        refine (Reader.bind_of_ok hread).trans ?_
        rw [ih hkept.2 rounds false _ (List.nodup_middle.mpr hnodup) hmembers
          (Nat.lt_of_succ_lt_succ hrounds)]
        simp [fill]

/-- Nothing is missing when all that is required has been filled in. -/
theorem missing?_eq_none {filling : Filling α}
    (hfilled : ∀ field ∈ shape.fields, field.optional = false →
      field.name ∈ filling.filled) : shape.missing? filling = none := by
  rw [missing?, List.find?_eq_none]
  intro field hfield
  cases hoptional : field.optional with
  | true => simp
  | false => simpa using hfilled field hfield hoptional

/-- A record is read from any of its entries, in any order, as long as all
that are required are among them. -/
theorem reads_object (hgiven : shape.Given entries)
    (hkept : ∀ entry ∈ kept, entry ∈ entries)
    (hnodup : (kept.map (·.name)).Nodup)
    (hrequired : ∀ field ∈ shape.fields, field.optional = false →
      field.name ∈ kept.map (·.name)) :
    Reader.Reads shape.reader (.object (kept.map Entry.member))
      (fill shape.blank kept) := by
  intro gap text rest hgap htext hrest
  cases htext with
  | object hmembers =>
      rename_i text
      have hlength := hmembers.length_le Value.MemberSpelled.length_pos
      rw [List.length_map] at hlength
      have hall := membersFrom_spelled hgiven rest kept hkept
        ((text ++ '\x7d' :: rest).length + 1) true ⟨shape.blank, []⟩
        (by simpa using hnodup) hmembers
        (by simp only [List.length_append]; omega)
      have hmissing : shape.missing? ⟨fill shape.blank kept,
          (kept.map (·.name)).reverse ++ []⟩ = none :=
        missing?_eq_none (by simpa using hrequired)
      have hobject : shape.ofObject (text ++ '\x7d' :: rest) =
          .ok (fill shape.blank kept, rest) := by
        refine (Reader.get_bind _ _).trans ?_
        refine (Reader.bind_of_ok hall).trans ?_
        simp only [hmissing]
        exact Reader.bind_of_ok (Reader.closeObject_brace rest)
      simp only [List.cons_append, List.append_assoc, List.nil_append]
      rw [reader, skipBlanks_append hgap, skipBlanks_cons (by decide)]
      exact hobject

/-- A record is read from all of its entries. -/
theorem Given.reads (hgiven : shape.Given entries) :
    Reader.Reads shape.reader (.object (entries.map Entry.member))
      (fill shape.blank entries) :=
  reads_object hgiven (fun _ hentry => hentry) hgiven.nodup
    fun field hfield _ => mem_names_of_takes hgiven.takes field hfield

/-- A record is read from those of its entries that are kept. -/
theorem Given.reads_filter (hgiven : shape.Given entries)
    {kept : String → Bool} (hkept : ∀ field ∈ shape.fields, field.optional = false →
      kept field.name = true) :
    Reader.Reads shape.reader
      (.object ((entries.map Entry.member).filter (kept ·.1)))
      (fill shape.blank (entries.filter (kept ·.name))) := by
  rw [List.filter_map]
  refine reads_object hgiven (fun _ hentry => List.mem_of_mem_filter hentry)
    (hgiven.nodup.sublist (List.filter_sublist.map _)) ?_
  intro field hfield hoptional
  obtain ⟨entry, hentry, hname⟩ :=
    List.mem_map.mp (mem_names_of_takes hgiven.takes field hfield)
  have hentry_kept : kept entry.name = true :=
    hname ▸ hkept field hfield hoptional
  exact List.mem_map.mpr
    ⟨entry, List.mem_filter.mpr ⟨hentry, hentry_kept⟩, hname⟩

end RecordShape

end XorOrbit.Json
