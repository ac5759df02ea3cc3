import XorOrbit.Fragment
import XorOrbit.Fragment.Phrase
import XorOrbit.Layout
import XorOrbit.Namespace

/-!
# Detecting a repeated seed

The subroutine that appends the seed to the log and finds out whether the log
had it before.  The new entry is first closed with the open terminator.  Then
the entries are compared with the seed one after the other, bit by bit; the new
entry always matches.  Which terminator stands behind the first match tells
whether it was an old entry or the new one.
-/

namespace XorOrbit.Synthesis

namespace DetectRepeat

/-- The symbols between the seed and the end of the log. -/
def crossing : List Char :=
  Symbol.bits ++ [Symbol.seedEnd, Symbol.entryEnd]

/-- The symbols between the log and the seed start. -/
def homeward : List Char :=
  Symbol.bits ++ [Symbol.entryEnd, Symbol.seedEnd]

/-- The rules that go to the first seed bit. -/
def enterRules (start : String) (ns : Namespace) : List Rule :=
  Phrase.pass start (Symbol.blank :: Symbol.bits) .right ++
    [⟨start, Symbol.seedStart, Symbol.seedStart, .right,
      ns.state "append_0"⟩]

/-- The state that appends seed bit `index`; after the last bit the entry is
closed. -/
def appendState (layout : Layout) (ns : Namespace) (index : Nat) : String :=
  if index = layout.wordLength then ns.state "seal"
  else ns.state s!"append_{index}"

/-- The rules that copy seed bit `index` to the end of the log. -/
def appendBitRules (layout : Layout) (ns : Namespace) (index : Nat) :
    List Rule :=
  let carry (bit : Bool) : String :=
    let b := Symbol.ofBit bit
    ns.state s!"append_{index}_carry_{b}"
  let back := ns.state s!"append_{index}_back"
  let drop (bit : Bool) : List Rule :=
    Phrase.pass (carry bit) crossing .right ++
      [⟨carry bit, Symbol.blank, Symbol.ofBit bit, .left, back⟩]
  Phrase.mark (ns.state s!"append_{index}") .right carry ++
    drop false ++ drop true ++
    Phrase.findMark back crossing .left .kept .right
      (appendState layout ns (index + 1))

/-- The rules that copy the seed to the end of the log, close the new entry and
go back to the first entry. -/
def appendRules (layout : Layout) (ns : Namespace) : List Rule :=
  let close := ns.state "seal"
  let rewind := ns.state "rewind"
  (List.range layout.wordLength).flatMap (appendBitRules layout ns) ++
    Phrase.pass close crossing .right ++
    [⟨close, Symbol.blank, Symbol.openEntryEnd, .left, rewind⟩] ++
    Phrase.travel rewind (Symbol.bits ++ [Symbol.entryEnd]) .left
      Symbol.seedEnd .right (ns.state "probe_0")

/-- The state that compares bit `index` of an entry; after the last bit the
entry matches. -/
def probeState (layout : Layout) (ns : Namespace) (index : Nat) : String :=
  if index = layout.wordLength then ns.state "verdict"
  else ns.state s!"probe_{index}"

/-- The rules that look up seed bit `index` for an entry whose bit is `bit`. -/
def probeSeedRules (ns : Namespace) (index : Nat) (bit : Bool) : List Rule :=
  let b := Symbol.ofBit bit
  let other := Symbol.ofBit !bit
  let standing (step : Nat) : String :=
    ns.state s!"probe_{index}_seed_{b}_{step}"
  Phrase.travel (ns.state s!"probe_{index}_seek_{b}") homeward .left
      Symbol.seedStart .right (standing 0) ++
    (List.range index).flatMap (fun step =>
      Phrase.cross (standing step) Symbol.bits .right (standing (step + 1))) ++
    [⟨standing index, b, b, .right, ns.state s!"probe_{index}_match"⟩,
      ⟨standing index, other, other, .right, ns.state "back_miss"⟩]

/-- The rules that compare bit `index` of an entry with the seed. -/
def probeRules (layout : Layout) (ns : Namespace) (index : Nat) : List Rule :=
  let seek (bit : Bool) : String :=
    let b := Symbol.ofBit bit
    ns.state s!"probe_{index}_seek_{b}"
  Phrase.mark (ns.state s!"probe_{index}") .left seek ++
    probeSeedRules ns index false ++ probeSeedRules ns index true ++
    Phrase.findMark (ns.state s!"probe_{index}_match") crossing .right
      .kept .right (probeState layout ns (index + 1))

/-- The rules that compare entries with the seed until one matches; a mismatch
skips to the next entry. -/
def compareRules (layout : Layout) (ns : Namespace) : List Rule :=
  let skip := ns.state "skip"
  (List.range layout.wordLength).flatMap (probeRules layout ns) ++
    Phrase.findMark (ns.state "back_miss") crossing .right .kept .right
      skip ++
    Phrase.travel skip Symbol.bits .right Symbol.entryEnd .right
      (ns.state "probe_0")

/-- The rules that close the new entry for good and go to the seed start:
to `fresh` if the new entry was the first match, else to `repeated`. -/
def verdictRules (fresh repeated : String) (ns : Namespace) : List Rule :=
  let verdict := ns.state "verdict"
  let sealFound := ns.state "seal_found"
  let homeFresh := ns.state "home_continue"
  let homeRepeated := ns.state "home_found"
  [⟨verdict, Symbol.entryEnd, Symbol.entryEnd, .right, sealFound⟩,
      ⟨verdict, Symbol.openEntryEnd, Symbol.entryEnd, .left, homeFresh⟩] ++
    Phrase.pass sealFound (Symbol.bits ++ [Symbol.entryEnd]) .right ++
    [⟨sealFound, Symbol.openEntryEnd, Symbol.entryEnd, .left, homeRepeated⟩] ++
    Phrase.travel homeFresh homeward .left Symbol.seedStart .stay fresh ++
    Phrase.travel homeRepeated homeward .left Symbol.seedStart .stay repeated

end DetectRepeat

open DetectRepeat in
/-- The subroutine that logs the seed and goes to `repeated` if the log had it
already, else to `fresh`. -/
def detectRepeat (start fresh repeated : String) (layout : Layout)
    (ns : Namespace) : Except Error Fragment := do
  let entered := Fragment.ofRules (enterRules start ns)
  let appended ← entered.merge (.ofRules (appendRules layout ns))
  let compared ← appended.merge (.ofRules (compareRules layout ns))
  compared.merge (.ofRules (verdictRules fresh repeated ns))

end XorOrbit.Synthesis
