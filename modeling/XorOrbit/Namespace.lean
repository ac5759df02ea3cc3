/-!
# Namespaces for states

Every subroutine keeps its internal states apart from those of all others by
putting its own name in front of them.
-/

namespace XorOrbit

/-- The name in front of a subroutine's states. -/
structure Namespace where
  label : String
deriving DecidableEq

/-- The full name of a local state. -/
def Namespace.state (ns : Namespace) (localName : String) : String :=
  ns.label ++ "." ++ localName

theorem Namespace.state_inj (ns : Namespace) {s t : String} :
    ns.state s = ns.state t ↔ s = t := by
  simp [state]

end XorOrbit
