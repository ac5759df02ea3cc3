import XorOrbit.Fragment
import XorOrbit.Fragment.Phrase
import XorOrbit.Namespace

/-!
# Copying the seed

The subroutine that replaces the scratch word by a copy of the seed.  Old
scratch bits are cleared first.  Then the seed is copied from its last bit to
its first: each bit is marked, carried left across the seed start and written
on the first blank, so the copy has the order of the seed.  Finally the markers
are turned back into bits and the head goes to the first scratch bit.  The
rules do not depend on the length of the seed.
-/

namespace XorOrbit.Synthesis

/-- The rules that carry `bit` to the left end of the scratch word. -/
def copyBitRules (ns : Namespace) (bit : Bool) : List Rule :=
  let b := Symbol.ofBit bit
  let carry := ns.state s!"carry_{b}"
  let drop := ns.state s!"drop_{b}"
  Phrase.travel carry Symbol.bits .left Symbol.seedStart .left drop ++
    Phrase.pass drop Symbol.bits .left ++
    [⟨drop, Symbol.blank, b, .right, ns.state "to_end"⟩]

/-- The rules of the copy from `start` to `done`. -/
def copySeedRules (start done : String) (ns : Namespace) : List Rule :=
  let seekStart := ns.state "seek_start"
  let clear := ns.state "clear"
  let toEnd := ns.state "to_end"
  let find := ns.state "find"
  let unmark := ns.state "unmark"
  let rewind := ns.state "rewind"
  let home := ns.state "home"
  let carry (bit : Bool) : String :=
    let b := Symbol.ofBit bit
    ns.state s!"carry_{b}"
  Phrase.travel start (Symbol.bits ++ [Symbol.blank, Symbol.seedStart]) .right
      Symbol.seedEnd .left seekStart ++
    Phrase.travel seekStart Symbol.bits .left Symbol.seedStart .left clear ++
    Symbol.bits.map (fun bit => ⟨clear, bit, Symbol.blank, .left, clear⟩) ++
    [⟨clear, Symbol.blank, Symbol.blank, .right, toEnd⟩] ++
    Phrase.travel toEnd
      (Symbol.bits ++ [Symbol.blank, Symbol.seedStart] ++ Symbol.marks) .right
      Symbol.seedEnd .left find ++
    Phrase.pass find Symbol.marks .left ++
    Phrase.mark find .left carry ++
    [⟨find, Symbol.seedStart, Symbol.seedStart, .right, unmark⟩] ++
    copyBitRules ns false ++
    copyBitRules ns true ++
    Phrase.restore unmark .kept .right unmark ++
    [⟨unmark, Symbol.seedEnd, Symbol.seedEnd, .left, rewind⟩] ++
    Phrase.travel rewind Symbol.bits .left Symbol.seedStart .left home ++
    Phrase.travel home Symbol.bits .left Symbol.blank .right done

/-- The subroutine that copies the seed into the scratch region. -/
def copySeed (start done : String) (ns : Namespace) : Fragment :=
  .ofRules (copySeedRules start done ns)

end XorOrbit.Synthesis
