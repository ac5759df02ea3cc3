import Mathlib.Data.List.Nodup
import Mathlib.Data.Prod.Basic
import XorOrbit.Fragment.Phrase
import XorOrbit.Proofs.Namespace
import XorOrbit.Proofs.Program.Table

/-!
# Outlines of rule lists

An outline lists the states that rules are for, each with the symbols that it
reads there.  It forgets what the rules do, which is all that matters for
whether a state is given two rules for a symbol.
-/

namespace XorOrbit

/-- States in their order, each with the symbols that it reads. -/
abbrev Outline := List (String × List Char)

namespace Outline

/-- The listed states. -/
def states (outline : Outline) : List String := outline.map Prod.fst

/-- The listed states, each with one of its symbols. -/
def keys (outline : Outline) : List (String × Char) :=
  outline.flatMap fun row => row.2.map (Prod.mk row.1)

@[simp] theorem states_nil : states [] = [] := rfl

@[simp] theorem states_cons (row : String × List Char) (outline : Outline) :
    states (row :: outline) = row.1 :: states outline := rfl

@[simp] theorem states_append (first second : Outline) :
    states (first ++ second) = states first ++ states second :=
  List.map_append

@[simp] theorem keys_nil : keys [] = [] := rfl

@[simp] theorem keys_cons (row : String × List Char) (outline : Outline) :
    keys (row :: outline) = row.2.map (Prod.mk row.1) ++ keys outline := rfl

@[simp] theorem keys_append (first second : Outline) :
    keys (first ++ second) = keys first ++ keys second :=
  List.flatMap_append

theorem mem_states_of_mem_keys {outline : Outline} {key : String × Char}
    (hkey : key ∈ outline.keys) : key.1 ∈ outline.states := by
  obtain ⟨row, hrow, hkey⟩ := List.mem_flatMap.mp hkey
  obtain ⟨symbol, -, rfl⟩ := List.mem_map.mp hkey
  exact List.mem_map_of_mem hrow

/-- If no state is listed twice and no state reads a symbol twice, there is at
most one rule for each state and symbol. -/
theorem nodup_keys {outline : Outline} (hstates : outline.states.Nodup)
    (hsymbols : ∀ row ∈ outline, row.2.Nodup) : outline.keys.Nodup := by
  induction outline with
  | nil => simp
  | cons row outline ih =>
      rw [states_cons, List.nodup_cons] at hstates
      rw [List.forall_mem_cons] at hsymbols
      rw [keys_cons, List.nodup_append']
      refine ⟨hsymbols.1.map (Prod.mk_right_injective row.1),
        ih hstates.2 hsymbols.2, ?_⟩
      intro key hrow hrest
      obtain ⟨symbol, -, rfl⟩ := List.mem_map.mp hrow
      exact hstates.1 (mem_states_of_mem_keys hrest)

/-- The rules are for the listed states and symbols, in the same order, and
every listed state reads something, but nothing twice. -/
structure Fits (outline : Outline) (rules : List Rule) : Prop where
  keys_eq : rules.map Rule.key = outline.keys
  nodup_symbols : ∀ row ∈ outline, row.2.Nodup
  symbols_ne_nil : ∀ row ∈ outline, row.2 ≠ []

namespace Fits

theorem nil : Fits [] [] := ⟨rfl, by simp, by simp⟩

/-- Rules for a single state. -/
theorem single {state : String} {symbols : List Char} {rules : List Rule}
    (hkeys : rules.map Rule.key = symbols.map (Prod.mk state))
    (hnodup : symbols.Nodup) (hne : symbols ≠ []) :
    Fits [(state, symbols)] rules :=
  ⟨by simpa using hkeys, by simpa using hnodup, by simpa using hne⟩

theorem append {outline outline' : Outline} {rules rules' : List Rule}
    (hfirst : outline.Fits rules) (hsecond : outline'.Fits rules') :
    Fits (outline ++ outline') (rules ++ rules') where
  keys_eq := by rw [List.map_append, hfirst.keys_eq, hsecond.keys_eq,
    keys_append]
  nodup_symbols := List.forall_mem_append.mpr
    ⟨hfirst.nodup_symbols, hsecond.nodup_symbols⟩
  symbols_ne_nil := List.forall_mem_append.mpr
    ⟨hfirst.symbols_ne_nil, hsecond.symbols_ne_nil⟩

theorem flatMap {α : Type} {items : List α} {outline : α → Outline}
    {rules : α → List Rule}
    (hitems : ∀ item ∈ items, (outline item).Fits (rules item)) :
    Fits (items.flatMap outline) (items.flatMap rules) := by
  induction items with
  | nil => exact nil
  | cons item items ih =>
      rw [List.forall_mem_cons] at hitems
      exact append hitems.1 (ih hitems.2)

theorem flatten {outlines : List Outline} {ruless : List (List Rule)}
    (hfits : List.Forall₂ Fits outlines ruless) :
    Fits outlines.flatten ruless.flatten := by
  induction hfits with
  | nil => exact nil
  | cons hfirst _ ih => exact append hfirst ih

variable {outline : Outline} {rules : List Rule}

theorem nodup_keys (hfits : outline.Fits rules)
    (hstates : outline.states.Nodup) : (rules.map Rule.key).Nodup := by
  rw [hfits.keys_eq]
  exact Outline.nodup_keys hstates hfits.nodup_symbols

/-- The listed states are the ones that have rules. -/
theorem mem_states_iff (hfits : outline.Fits rules) {state : String} :
    state ∈ outline.states ↔ ∃ rule ∈ rules, rule.state = state := by
  constructor
  · intro hstate
    obtain ⟨row, hrow, rfl⟩ := List.mem_map.mp hstate
    obtain ⟨symbol, hsymbol⟩ :=
      List.exists_mem_of_ne_nil _ (hfits.symbols_ne_nil row hrow)
    have hkey : (row.1, symbol) ∈ rules.map Rule.key := by
      rw [hfits.keys_eq]
      exact List.mem_flatMap.mpr
        ⟨row, hrow, List.mem_map_of_mem hsymbol⟩
    obtain ⟨rule, hrule, heq⟩ := List.mem_map.mp hkey
    exact ⟨rule, hrule, congrArg Prod.fst heq⟩
  · rintro ⟨rule, hrule, rfl⟩
    have hkey : rule.key ∈ outline.keys := by
      rw [← hfits.keys_eq]
      exact List.mem_map_of_mem hrule
    exact mem_states_of_mem_keys hkey

end Fits

end Outline

/-! ## Outlines by labels -/

namespace Namespace

variable (start : String) (ns : Namespace)

/-- The outline whose states are given by their labels. -/
def outline (rows : List (Label × List Char)) : Outline :=
  rows.map fun row => (ns.locate start row.1, row.2)

@[simp] theorem outline_nil : ns.outline start [] = [] := rfl

@[simp] theorem outline_cons (row : Label × List Char)
    (rows : List (Label × List Char)) :
    ns.outline start (row :: rows) =
      (ns.locate start row.1, row.2) :: ns.outline start rows := rfl

@[simp] theorem outline_append (first second : List (Label × List Char)) :
    ns.outline start (first ++ second) =
      ns.outline start first ++ ns.outline start second :=
  List.map_append

@[simp] theorem outline_flatMap {α : Type} (items : List α)
    (rows : α → List (Label × List Char)) :
    ns.outline start (items.flatMap rows) =
      items.flatMap fun item => ns.outline start (rows item) :=
  List.map_flatMap

theorem states_outline (rows : List (Label × List Char)) :
    (ns.outline start rows).states =
      (rows.map Prod.fst).map (ns.locate start) := by
  simp [outline, Outline.states, Function.comp_def]

variable {start ns}

theorem nodup_states_outline {rows : List (Label × List Char)}
    (hstart : ¬ ns.Owns start) (hrows : (rows.map Prod.fst).Nodup) :
    (ns.outline start rows).states.Nodup := by
  rw [states_outline]
  exact hrows.map (locate_injective hstart)

/-- A state of the outline is the start state or has the namespace's name in
front. -/
theorem eq_or_owns_of_mem_states_outline {rows : List (Label × List Char)}
    {state : String} (hstate : state ∈ (ns.outline start rows).states) :
    state = start ∨ ns.Owns state := by
  rw [states_outline] at hstate
  obtain ⟨label, -, rfl⟩ := List.mem_map.mp hstate
  by_cases hlabel : label = []
  · subst hlabel
    exact Or.inl rfl
  · exact Or.inr (ns.owns_locate start hlabel)

end Namespace

/-! ## Keys of phrases -/

section Phrases

variable (state next : String) (symbols : List Char) (direction : Direction)

@[simp] theorem map_key_cross :
    (Phrase.cross state symbols direction next).map Rule.key =
      symbols.map (Prod.mk state) := by
  simp [Phrase.cross, Rule.key, Function.comp_def]

@[simp] theorem map_key_pass :
    (Phrase.pass state symbols direction).map Rule.key =
      symbols.map (Prod.mk state) :=
  map_key_cross state state symbols direction

@[simp] theorem map_key_mark (next : Bool → String) :
    (Phrase.mark state direction next).map Rule.key =
      Symbol.bits.map (Prod.mk state) :=
  rfl

@[simp] theorem map_key_restore (value : Restore) :
    (Phrase.restore state value direction next).map Rule.key =
      Symbol.marks.map (Prod.mk state) :=
  rfl

@[simp] theorem map_key_findMark (value : Restore) (turn : Direction) :
    (Phrase.findMark state symbols direction value turn next).map Rule.key =
      (symbols ++ Symbol.marks).map (Prod.mk state) := by
  rw [Phrase.findMark, List.map_append, map_key_pass, map_key_restore,
    List.map_append]

@[simp] theorem map_key_travel (target : Char) (turn : Direction) :
    (Phrase.travel state symbols direction target turn next).map Rule.key =
      (symbols ++ [target]).map (Prod.mk state) := by
  rw [Phrase.travel, List.map_append, map_key_pass, List.map_append]
  rfl

end Phrases

end XorOrbit
