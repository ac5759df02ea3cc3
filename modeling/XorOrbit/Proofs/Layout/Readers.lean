import Mathlib.Data.List.DropRight
import XorOrbit.Proofs.Layout.Padding

/-!
# What the readers of the regions find

The readers give an answer for every row of cells, also where separators are
missing, repeated or in another order.  Each answer is said here by a division
of the row that does not mention how it is found.
-/

namespace XorOrbit.Regions

/-! ## Before and after a symbol -/

section Symbol

variable {symbol : Char} {cells left right : List Char}

theorem after?_eq_some_iff :
    after? symbol cells = some right ↔
      ∃ left, cells = left ++ symbol :: right ∧ symbol ∉ left := by
  constructor
  · intro hafter
    by_cases hmem : symbol ∈ cells
    · obtain ⟨left, rest, rfl, hleft⟩ := List.eq_append_cons_of_mem hmem
      rw [after?_append hleft] at hafter
      obtain rfl := Option.some.inj hafter
      exact ⟨left, rfl, hleft⟩
    · rw [after?_eq_none hmem] at hafter
      contradiction
  · rintro ⟨left, rfl, hleft⟩
    exact after?_append hleft right

theorem before?_eq_some_iff :
    before? symbol cells = some left ↔
      ∃ right, cells = left ++ symbol :: right ∧ symbol ∉ left := by
  constructor
  · intro hbefore
    by_cases hmem : symbol ∈ cells
    · obtain ⟨first, rest, rfl, hfirst⟩ := List.eq_append_cons_of_mem hmem
      rw [before?_append hfirst] at hbefore
      obtain rfl := Option.some.inj hbefore
      exact ⟨rest, rfl, hfirst⟩
    · rw [before?_eq_none hmem] at hbefore
      contradiction
  · rintro ⟨right, rfl, hleft⟩
    exact before?_append hleft right

theorem before?_eq_none_iff :
    before? symbol cells = none ↔ symbol ∉ cells := by
  simp [before?]

end Symbol

/-! ## The seed -/

section Seed

variable {cells : List Char}

theorem seed?_eq_some_iff {seed : List Char} :
    seed? cells = some seed ↔
      ∃ left right,
        cells = left ++ Symbol.seedStart :: (seed ++ Symbol.seedEnd :: right) ∧
          Symbol.seedStart ∉ left ∧ Symbol.seedEnd ∉ seed := by
  rw [seed?, Option.bind_eq_bind, Option.bind_eq_some_iff]
  simp only [after?_eq_some_iff, before?_eq_some_iff]
  constructor
  · rintro ⟨rest, ⟨left, rfl, hleft⟩, right, rfl, hseed⟩
    exact ⟨left, right, rfl, hleft, hseed⟩
  · rintro ⟨left, right, rfl, hleft, hseed⟩
    exact ⟨_, ⟨left, rfl, hleft⟩, right, rfl, hseed⟩

theorem seed?_eq_none_iff :
    seed? cells = none ↔
      Symbol.seedStart ∉ cells ∨
        ∃ left right, cells = left ++ Symbol.seedStart :: right ∧
          Symbol.seedStart ∉ left ∧ Symbol.seedEnd ∉ right := by
  rw [seed?, Option.bind_eq_bind, Option.bind_eq_none_iff]
  simp only [after?_eq_some_iff, before?_eq_none_iff]
  constructor
  · intro hnone
    by_cases hmem : Symbol.seedStart ∈ cells
    · obtain ⟨left, rest, hcells, hleft⟩ := List.eq_append_cons_of_mem hmem
      exact Or.inr ⟨left, rest, hcells, hleft, hnone rest ⟨left, hcells, hleft⟩⟩
    · exact Or.inl hmem
  · rintro (hmem | ⟨left, right, hcells, hleft, hright⟩)
      rest ⟨first, hfirst, hnot⟩
    · exact absurd (by simp [hfirst]) hmem
    · have hsame : some right = some rest := by
        rw [← after?_append hleft right, ← after?_append hnot rest, ← hcells,
          hfirst]
      rwa [← Option.some.inj hsame]

end Seed

/-! ## The scratch word -/

/-- The cells back to the nearest blank. -/
theorem reverse_takeWhile_reverse_eq_iff {region word : List Char} :
    (region.reverse.takeWhile (· != Symbol.blank)).reverse = word ↔
      Symbol.blank ∉ word ∧ ∃ left, region = left ++ word ∧
        (left = [] ∨ left.getLast? = some Symbol.blank) := by
  constructor
  · rintro rfl
    constructor
    · intro hblank
      have hnot := List.mem_rtakeWhile_imp hblank
      simp at hnot
    · refine ⟨region.rdropWhile (· != Symbol.blank),
        List.rdropWhile_append_rtakeWhile.symm, ?_⟩
      rw [or_iff_not_imp_left]
      intro hleft
      have hlast := List.rdropWhile_last_not _ _ hleft
      rw [List.getLast?_eq_some_getLast hleft]
      simpa using hlast
  · rintro ⟨hword, left, rfl, hleft⟩
    have hstop : left.reverse.takeWhile (· != Symbol.blank) = [] := by
      rcases hleft with rfl | hlast
      · rfl
      · obtain ⟨init, rfl⟩ := List.getLast?_eq_some_iff.mp hlast
        simp
    rw [List.reverse_append, List.takeWhile_append_of_pos, hstop,
      List.append_nil, List.reverse_reverse]
    intro symbol hsymbol
    simpa using ne_of_mem_of_not_mem (List.mem_reverse.mp hsymbol) hword

section Scratch

variable {cells : List Char}

theorem scratch?_eq_some_iff {word : List Char} :
    scratch? cells = some word ↔
      ∃ left right, cells = left ++ word ++ Symbol.seedStart :: right ∧
        Symbol.seedStart ∉ left ∧ Symbol.seedStart ∉ word ∧
        Symbol.blank ∉ word ∧
        (left = [] ∨ left.getLast? = some Symbol.blank) := by
  simp only [scratch?, Option.bind_eq_bind, Option.bind_eq_some_iff,
    Option.pure_def, Option.some.injEq, before?_eq_some_iff,
    reverse_takeWhile_reverse_eq_iff]
  constructor
  · rintro ⟨_, ⟨right, rfl, hstart⟩, hblank, left, rfl, hleft⟩
    rw [List.mem_append, not_or] at hstart
    exact ⟨left, right, rfl, hstart.1, hstart.2, hblank, hleft⟩
  · rintro ⟨left, right, rfl, hstart, hstart', hblank, hleft⟩
    refine ⟨left ++ word, ⟨right, rfl, ?_⟩, hblank, left, rfl, hleft⟩
    rw [List.mem_append, not_or]
    exact ⟨hstart, hstart'⟩

theorem scratch?_eq_none_iff :
    scratch? cells = none ↔ Symbol.seedStart ∉ cells := by
  rw [← before?_eq_none_iff, scratch?]
  cases before? Symbol.seedStart cells with
  | none => simp
  | some region => simp

end Scratch

/-! ## The log -/

/-- Removing the blanks at the end. -/
theorem trimEnd_eq_iff {cells log : List Char} :
    trimEnd cells = log ↔
      log.getLast? ≠ some Symbol.blank ∧
        ∃ count, cells = log ++ blanks count := by
  constructor
  · rintro rfl
    change (cells.rdropWhile (· == Symbol.blank)).getLast? ≠ _ ∧ _
    constructor
    · intro hlast
      obtain ⟨init, hinit⟩ := List.getLast?_eq_some_iff.mp hlast
      have hne : cells.rdropWhile (· == Symbol.blank) ≠ [] := by
        simp [hinit]
      have hnot := List.rdropWhile_last_not _ _ hne
      simp [hinit] at hnot
    · refine ⟨(cells.rtakeWhile (· == Symbol.blank)).length, ?_⟩
      have hblanks : cells.rtakeWhile (· == Symbol.blank) =
          blanks (cells.rtakeWhile (· == Symbol.blank)).length := by
        refine List.eq_replicate_of_mem ?_
        intro symbol hsymbol
        simpa using List.mem_rtakeWhile_imp hsymbol
      rw [← hblanks]
      exact List.rdropWhile_append_rtakeWhile.symm
  · rintro ⟨hlast, count, rfl⟩
    rw [trimEnd_append]
    refine List.rdropWhile_eq_self_iff.mpr ?_
    intro hne hblank
    apply hlast
    rw [List.getLast?_eq_some_getLast hne]
    simpa using hblank

/-- The maximal pieces of a row between separators, in their order.  No two of
them meet: what follows a piece is the end of the row or a separator. -/
inductive Pieces (separator : Char) : List Char → List (List Char) → Prop
  | nil : Pieces separator [] []
  | skip {row : List Char} {pieces : List (List Char)} :
      Pieces separator row pieces →
      Pieces separator (separator :: row) pieces
  | cons {piece row : List Char} {pieces : List (List Char)} :
      piece ≠ [] → separator ∉ piece →
      (∀ symbol ∈ row.head?, symbol = separator) →
      Pieces separator row pieces →
      Pieces separator (piece ++ row) (piece :: pieces)

section Pieces

variable {separator : Char} {row : List Char} {pieces : List (List Char)}

theorem splitOn_cons_self (separator : Char) (row : List Char) :
    (separator :: row).splitOn separator =
      [] :: row.splitOn separator := by
  rw [List.splitOn_cons_eq_if_modifyHead, if_pos (beq_self_eq_true _)]

/-- Splitting a row at its separators finds its pieces, and empty ones where
separators meet. -/
theorem Pieces.filter_splitOn (hpieces : Pieces separator row pieces) :
    (row.splitOn separator).filter (!·.isEmpty) = pieces := by
  induction hpieces with
  | nil => rfl
  | skip _ ih =>
      rw [splitOn_cons_self, List.filter_cons_of_neg (by simp), ih]
  | @cons piece row pieces hne hpiece hnext _ ih =>
      have hkept (rest : List (List Char)) :
          (piece :: rest).filter (!·.isEmpty) =
            piece :: rest.filter (!·.isEmpty) :=
        List.filter_cons_of_pos (by simpa using hne)
      cases row with
      | nil =>
          rw [List.append_nil, List.splitOn_eq_singleton hpiece, hkept, ← ih]
          rfl
      | cons symbol row =>
          obtain rfl : symbol = separator := hnext symbol rfl
          rw [splitOn_cons_self, List.filter_cons_of_neg (by simp)] at ih
          rw [List.splitOn_append_cons_self_of_not_mem hpiece, hkept, ih]

/-- A symbol before the end of a row or before a separator is a piece. -/
theorem Pieces.start {symbol : Char} (hsymbol : symbol ≠ separator)
    (hnext : ∀ symbol ∈ row.head?, symbol = separator)
    (hpieces : Pieces separator row pieces) :
    Pieces separator (symbol :: row) ([symbol] :: pieces) := by
  have hpiece : separator ∉ [symbol] := by simpa using hsymbol.symm
  exact hpieces.cons (List.cons_ne_nil symbol []) hpiece hnext

theorem exists_pieces (separator : Char) (row : List Char) :
    ∃ pieces, Pieces separator row pieces := by
  induction row with
  | nil => exact ⟨[], .nil⟩
  | cons symbol row ih =>
      obtain ⟨pieces, hpieces⟩ := ih
      by_cases hsymbol : symbol = separator
      · subst hsymbol
        exact ⟨pieces, hpieces.skip⟩
      · cases hpieces with
        | nil => exact ⟨_, Pieces.nil.start hsymbol (by simp)⟩
        | skip hrest => exact ⟨_, hrest.skip.start hsymbol (by simp)⟩
        | @cons piece row pieces hne hpiece hnext hrest =>
            refine ⟨(symbol :: piece) :: pieces, ?_⟩
            refine hrest.cons (List.cons_ne_nil _ _) ?_ hnext
            rw [List.mem_cons, not_or]
            exact ⟨Ne.symm hsymbol, hpiece⟩

theorem pieces_iff :
    Pieces separator row pieces ↔
      (row.splitOn separator).filter (!·.isEmpty) = pieces := by
  constructor
  · exact Pieces.filter_splitOn
  · rintro rfl
    obtain ⟨pieces, hpieces⟩ := exists_pieces separator row
    rwa [hpieces.filter_splitOn]

end Pieces

section History

variable {cells : List Char} {entries : List (List Char)}

theorem history_of_notMem (hcells : Symbol.seedEnd ∉ cells) :
    history cells = [] := by
  rw [history, after?_eq_none hcells]

theorem history_eq_iff_pieces {left log : List Char}
    (hleft : Symbol.seedEnd ∉ left) :
    history (left ++ Symbol.seedEnd :: log) = entries ↔
      Pieces Symbol.entryEnd (trimEnd log) entries := by
  rw [history, after?_append hleft, pieces_iff]

/-- Without a seed end there is no log, and otherwise its entries are the
pieces of what follows the first one, up to the blanks at the end. -/
theorem history_eq_iff :
    history cells = entries ↔
      (Symbol.seedEnd ∉ cells ∧ entries = []) ∨
      ∃ left log count,
        cells = left ++ Symbol.seedEnd :: (log ++ blanks count) ∧
          Symbol.seedEnd ∉ left ∧ log.getLast? ≠ some Symbol.blank ∧
          Pieces Symbol.entryEnd log entries := by
  constructor
  · rintro rfl
    by_cases hmem : Symbol.seedEnd ∈ cells
    · obtain ⟨left, log, rfl, hleft⟩ := List.eq_append_cons_of_mem hmem
      obtain ⟨hlast, count, hlog⟩ := trimEnd_eq_iff.mp (Eq.refl (trimEnd log))
      refine Or.inr ⟨left, trimEnd log, count, by rw [← hlog], hleft, hlast,
        ?_⟩
      exact (history_eq_iff_pieces hleft).mp rfl
    · exact Or.inl ⟨hmem, history_of_notMem hmem⟩
  · rintro (⟨hmem, rfl⟩ | ⟨left, log, count, rfl, hleft, hlast, hpieces⟩)
    · exact history_of_notMem hmem
    · rw [history_eq_iff_pieces hleft,
        trimEnd_eq_iff.mpr ⟨hlast, count, rfl⟩]
      exact hpieces

end History

/-! ## Tapes that consist of the regions -/

/-- The row has neither separators nor blanks in it. -/
def Plain (row : List Char) : Prop :=
  ∀ symbol ∈ row, symbol ∉
    [Symbol.blank, Symbol.seedStart, Symbol.seedEnd, Symbol.entryEnd]

/-- The cells of a tape that has a scratch word, a seed and a log. -/
def laidOut (word seed : List Char) (entries : List (List Char))
    (left right : Nat) : List Char :=
  blanks left ++ word ++ Symbol.seedStart :: (seed ++ Symbol.seedEnd ::
    (entries.flatMap (· ++ [Symbol.entryEnd]) ++ blanks right))

theorem Plain.notMem {row : List Char} (hrow : Plain row) {symbol : Char}
    (hsymbol : symbol ∈
      [Symbol.blank, Symbol.seedStart, Symbol.seedEnd, Symbol.entryEnd]) :
    symbol ∉ row :=
  fun hmem => hrow symbol hmem hsymbol

theorem pieces_flatMap {separator : Char} {entries : List (List Char)}
    (hentries : ∀ entry ∈ entries, entry ≠ [] ∧ separator ∉ entry) :
    Pieces separator (entries.flatMap (· ++ [separator])) entries := by
  induction entries with
  | nil => exact .nil
  | cons entry entries ih =>
      rw [List.forall_mem_cons] at hentries
      obtain ⟨⟨hne, hentry⟩, hentries⟩ := hentries
      rw [List.flatMap_cons, List.append_assoc]
      exact (ih hentries).skip.cons hne hentry (by simp)

section LaidOut

variable {word seed : List Char} {entries : List (List Char)}

theorem seed?_laidOut (hword : Plain word) (hseed : Plain seed)
    (left right : Nat) :
    seed? (laidOut word seed entries left right) = some seed := by
  refine seed?_eq_some_iff.mpr ⟨_, _, rfl, ?_, hseed.notMem (by simp)⟩
  rw [List.mem_append, not_or]
  exact ⟨notMem_blanks (by decide) left, hword.notMem (by simp)⟩

theorem scratch?_laidOut (hword : Plain word) (left right : Nat) :
    scratch? (laidOut word seed entries left right) = some word := by
  refine scratch?_eq_some_iff.mpr ⟨_, _, rfl,
    notMem_blanks (by decide) left, hword.notMem (by simp),
    hword.notMem (by simp), ?_⟩
  cases left with
  | zero => exact Or.inl rfl
  | succ left =>
      right
      rw [blanks_succ', List.getLast?_append]
      rfl

theorem history_laidOut (hword : Plain word) (hseed : Plain seed)
    (hentries : ∀ entry ∈ entries, entry ≠ [] ∧ Plain entry)
    (left right : Nat) :
    history (laidOut word seed entries left right) = entries := by
  refine history_eq_iff.mpr (Or.inr
    ⟨blanks left ++ word ++ Symbol.seedStart :: seed,
      entries.flatMap (· ++ [Symbol.entryEnd]), right, ?_, ?_, ?_, ?_⟩)
  · simp [laidOut]
  · simp only [List.mem_append, List.mem_cons, not_or]
    exact ⟨⟨notMem_blanks (by decide) left, hword.notMem (by simp)⟩,
      by decide, hseed.notMem (by simp)⟩
  · intro hlast
    obtain ⟨entry, hentry, hblank⟩ :=
      List.mem_flatMap.mp (List.mem_of_getLast? hlast)
    rw [List.mem_append, List.mem_singleton] at hblank
    rcases hblank with hblank | hblank
    · exact (hentries entry hentry).2.notMem (by simp) hblank
    · exact absurd hblank (by decide)
  · exact pieces_flatMap fun entry hentry =>
      ⟨(hentries entry hentry).1, (hentries entry hentry).2.notMem (by simp)⟩

end LaidOut

/-- The readers divide every row of cells in the same way, and so they give back
the regions of a tape that consists of them. -/
theorem readers_divide_every_row :
    (∀ cells seed, seed? cells = some seed ↔
      ∃ left right,
        cells = left ++ Symbol.seedStart :: (seed ++ Symbol.seedEnd :: right) ∧
          Symbol.seedStart ∉ left ∧ Symbol.seedEnd ∉ seed) ∧
    (∀ cells, seed? cells = none ↔
      Symbol.seedStart ∉ cells ∨
        ∃ left right, cells = left ++ Symbol.seedStart :: right ∧
          Symbol.seedStart ∉ left ∧ Symbol.seedEnd ∉ right) ∧
    (∀ cells word, scratch? cells = some word ↔
      ∃ left right, cells = left ++ word ++ Symbol.seedStart :: right ∧
        Symbol.seedStart ∉ left ∧ Symbol.seedStart ∉ word ∧
        Symbol.blank ∉ word ∧
        (left = [] ∨ left.getLast? = some Symbol.blank)) ∧
    (∀ cells, scratch? cells = none ↔ Symbol.seedStart ∉ cells) ∧
    (∀ cells entries, history cells = entries ↔
      (Symbol.seedEnd ∉ cells ∧ entries = []) ∨
      ∃ left log count,
        cells = left ++ Symbol.seedEnd :: (log ++ blanks count) ∧
          Symbol.seedEnd ∉ left ∧ log.getLast? ≠ some Symbol.blank ∧
          Pieces Symbol.entryEnd log entries) ∧
    ∀ word seed entries left right, Plain word → Plain seed →
      (∀ entry ∈ entries, entry ≠ [] ∧ Plain entry) →
        seed? (laidOut word seed entries left right) = some seed ∧
        scratch? (laidOut word seed entries left right) = some word ∧
        history (laidOut word seed entries left right) = entries := by
  refine ⟨fun _ _ => seed?_eq_some_iff, fun _ => seed?_eq_none_iff,
    fun _ _ => scratch?_eq_some_iff, fun _ => scratch?_eq_none_iff,
    fun _ _ => history_eq_iff, ?_⟩
  intro word seed entries left right hword hseed hentries
  exact ⟨seed?_laidOut hword hseed left right,
    scratch?_laidOut hword left right,
    history_laidOut hword hseed hentries left right⟩

/-- Blanks end the scratch word but not the seed, and a blank before the last
terminator belongs to an entry. -/
example :
    seed? "x@0_@1#".toList = some "0_@1".toList ∧
      scratch? "#0_x@0_@1#".toList = some "x".toList ∧
      history "_@#é_$$_1__$__".toList = ["é_".toList, "_1__".toList] := by
  decide

end XorOrbit.Regions
