import XorOrbit.Namespace
import XorOrbit.Proofs.Label

/-!
# States that belong to a namespace

The full name of a local state has the namespace in front and a dot behind it.
Local names and the states between subroutines have no dot, so the states of two
subroutines cannot be confused, not even if a namespace has dots itself.
-/

namespace XorOrbit.Namespace

/-- The state has the namespace's name in front. -/
def Owns (ns : Namespace) (state : String) : Prop :=
  ∃ name, state = ns.state name

theorem owns_state (ns : Namespace) (name : String) :
    ns.Owns (ns.state name) :=
  ⟨name, rfl⟩

theorem toList_state (ns : Namespace) (name : String) :
    (ns.state name).toList = ns.label.toList ++ '.' :: name.toList := by
  simp [state]

/-- A state without a dot stands between the subroutines. -/
theorem not_owns_of_notMem {ns : Namespace} {state : String}
    (hstate : '.' ∉ state.toList) : ¬ ns.Owns state := by
  rintro ⟨name, rfl⟩
  exact hstate (by simp [toList_state])

/-- The local name is what stands behind the last dot, so it tells where the
name of the namespace ends, whatever dots that has itself. -/
theorem eq_of_state_eq {first second : Namespace} {name name' : String}
    (hname : '.' ∉ name.toList) (hname' : '.' ∉ name'.toList)
    (heq : first.state name = second.state name') : first = second := by
  have hlist := congrArg String.toList heq
  rw [toList_state, toList_state, List.append_eq_append_iff] at hlist
  have hlabel : first.label.toList = second.label.toList := by
    rcases hlist with ⟨between, hsecond, hrest⟩ | ⟨between, hfirst, hrest⟩
    · cases between with
      | nil => simpa using hsecond.symm
      | cons symbol between =>
          rw [List.cons_append, List.cons.injEq] at hrest
          exact absurd (by simp [hrest.2]) hname
    · cases between with
      | nil => simpa using hfirst
      | cons symbol between =>
          rw [List.cons_append, List.cons.injEq] at hrest
          exact absurd (by simp [hrest.2]) hname'
  exact congrArg Namespace.mk (String.toList_inj.mp hlabel)

/-- The states around a subroutine: they are different, and none of them has
the namespace's name in front. -/
structure Outside (ns : Namespace) (states : List String) : Prop where
  nodup : states.Nodup
  not_owns : ∀ state ∈ states, ¬ ns.Owns state

/-- Different states without a dot are outside every namespace. -/
theorem outside_of_notMem (ns : Namespace) {states : List String}
    (hnodup : states.Nodup) (hdot : ∀ state ∈ states, '.' ∉ state.toList) :
    ns.Outside states where
  nodup := hnodup
  not_owns := fun state hstate => not_owns_of_notMem (hdot state hstate)

/-- The states of a subroutine by their labels; the one it starts in belongs
to its surroundings and has no label. -/
def locate (start : String) (ns : Namespace) : Label → String
  | [] => start
  | part :: label => ns.state (Label.name (part :: label))

theorem owns_locate (start : String) (ns : Namespace) {label : Label}
    (hlabel : label ≠ []) : ns.Owns (ns.locate start label) := by
  cases label with
  | nil => exact absurd rfl hlabel
  | cons part label => exact ns.owns_state _

theorem locate_eq (start : String) (ns : Namespace) {part : Part}
    {label : Label} {name : String}
    (hname : ['_'].intercalate ((part :: label).map Part.chars) =
      name.toList) :
    ns.locate start (part :: label) = ns.state name := by
  rw [locate, Label.name, hname, String.ofList_toList]

/-- A state that is located twice has the same start or the same namespace, if
the starts have no dot. -/
theorem eq_or_eq_of_locate_eq {start start' : String} {ns ns' : Namespace}
    {label label' : Label} (hstart : '.' ∉ start.toList)
    (hstart' : '.' ∉ start'.toList)
    (heq : ns.locate start label = ns'.locate start' label') :
    start = start' ∨ ns = ns' := by
  cases label with
  | nil =>
      cases label' with
      | nil => exact Or.inl heq
      | cons part label => exact absurd ⟨_, heq⟩ (not_owns_of_notMem hstart)
  | cons part label =>
      cases label' with
      | nil => exact absurd ⟨_, heq.symm⟩ (not_owns_of_notMem hstart')
      | cons part' label' =>
          exact Or.inr (eq_of_state_eq (Label.dot_notMem_name _)
            (Label.dot_notMem_name _) heq)

theorem locate_injective {start : String} {ns : Namespace}
    (hstart : ¬ ns.Owns start) : Function.Injective (ns.locate start) := by
  intro first second heq
  cases first with
  | nil =>
      cases second with
      | nil => rfl
      | cons part label => exact absurd ⟨_, heq⟩ hstart
  | cons part label =>
      cases second with
      | nil => exact absurd ⟨_, heq.symm⟩ hstart
      | cons part' label' =>
          exact Label.name_injective (ns.state_inj.mp heq)

end XorOrbit.Namespace
