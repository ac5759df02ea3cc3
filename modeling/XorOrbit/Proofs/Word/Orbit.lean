import Mathlib.Data.Fintype.BigOperators
import Mathlib.Data.List.Iterate
import Mathlib.Data.Set.List
import XorOrbit.Generator
import XorOrbit.Proofs.Word.Shift

/-!
# The orbit of a word

The words `next^[0] word`, `next^[1] word`, … up to the first that occurred
before.  There are only `2 ^ n` words of `n` bits, so some word must repeat
before the search for it is given up.
-/

namespace XorOrbit.Word

/-- The words from `word` on are distinct up to the one with the index
`count`, which is among those before it. -/
structure Repeats (next : Word → Word) (word : Word) (count : Nat) :
    Prop where
  nodup : (List.iterate next word count).Nodup
  mem : next^[count] word ∈ List.iterate next word count

section Orbit

variable {next : Word → Word} {word : Word}

theorem iterate_succ_eq_append (count : Nat) :
    List.iterate next word (count + 1) =
      List.iterate next word count ++ [next^[count] word] :=
  List.iterate_add next word count 1

/-- Words of equal length that are all distinct are not too many. -/
theorem length_le_of_nodup {words : List Word} {length : Nat}
    (hnodup : words.Nodup) (hlength : ∀ word ∈ words, word.length = length) :
    words.length ≤ 2 ^ length := by
  have hrange : words ∈ Set.range
      (List.map fun vector : List.Vector Bool length => vector.toList) := by
    rw [Set.range_list_map]
    exact fun word hword => ⟨⟨word, hlength word hword⟩, rfl⟩
  obtain ⟨vectors, rfl⟩ := hrange
  have hcard := hnodup.of_map.length_le_card
  rwa [card_vector, Fintype.card_bool, ← List.length_map] at hcard

theorem nodup_iterate_succ {count : Nat}
    (hnodup : (List.iterate next word count).Nodup)
    (hnew : next^[count] word ∉ List.iterate next word count) :
    (List.iterate next word (count + 1)).Nodup := by
  rw [iterate_succ_eq_append, List.nodup_append']
  simpa [hnodup] using hnew

/-- After as many distinct words as there are, the next one repeats. -/
theorem mem_iterate_of_nodup
    (hnext : ∀ other, (next other).length = other.length) {count : Nat}
    (hcount : 2 ^ word.length ≤ count)
    (hnodup : (List.iterate next word count).Nodup) :
    next^[count] word ∈ List.iterate next word count := by
  by_contra hnew
  have hlength : ∀ other ∈ List.iterate next word (count + 1),
      other.length = word.length := by
    intro other hother
    obtain ⟨steps, -, rfl⟩ := List.mem_iterate.mp hother
    exact Function.Iterate.rec (fun other => other.length = word.length)
      rfl (fun other hother => (hnext other).trans hother) steps
  have hle := length_le_of_nodup (nodup_iterate_succ hnodup hnew) hlength
  rw [List.length_iterate] at hle
  omega

/-- The words before the first repeated one have been collected, and there are
as many rounds left as there can be further words. -/
theorem orbitFrom_eq
    (hnext : ∀ other, (next other).length = other.length)
    (word : Word) (bound count : Nat) (hbound : count + bound = 2 ^ word.length)
    (seen : Std.ExtTreeSet Word)
    (hseen : ∀ other, other ∈ seen ↔ other ∈ List.iterate next word count)
    (hnodup : (List.iterate next word count).Nodup) :
    ∃ last, Repeats next word last ∧
      orbitFrom next bound seen (List.iterate next word count).reverse
          (next^[count] word) =
        (List.iterate next word (last + 1)).reverse := by
  induction bound generalizing count seen with
  | zero =>
      have hmem := mem_iterate_of_nodup hnext (by omega) hnodup
      refine ⟨count, ⟨hnodup, hmem⟩, ?_⟩
      rw [orbitFrom, iterate_succ_eq_append, List.reverse_append]
      rfl
  | succ bound ih =>
      rw [orbitFrom]
      by_cases hmem : next^[count] word ∈ List.iterate next word count
      · refine ⟨count, ⟨hnodup, hmem⟩, ?_⟩
        rw [if_pos ((hseen _).mpr hmem), iterate_succ_eq_append,
          List.reverse_append]
        rfl
      · rw [if_neg (fun h => hmem ((hseen _).mp h))]
        have hseen' : ∀ other,
            other ∈ seen.insert (next^[count] word) ↔
              other ∈ List.iterate next word (count + 1) := by
          intro other
          rw [Std.ExtTreeSet.mem_insert, Std.LawfulEqOrd.compare_eq_iff_eq,
            hseen, iterate_succ_eq_append, List.mem_append,
            List.mem_singleton, eq_comm, or_comm]
        obtain ⟨last, hrepeats, hfrom⟩ := ih (count + 1) (by omega) _ hseen'
          (nodup_iterate_succ hnodup hmem)
        refine ⟨last, hrepeats, ?_⟩
        rw [← hfrom, Function.iterate_succ_apply', iterate_succ_eq_append,
          List.reverse_append]
        rfl

/-- The orbit lists the words up to and including the first repeated one. -/
theorem exists_orbit_eq
    (hnext : ∀ other, (next other).length = other.length) (word : Word) :
    ∃ last, Repeats next word last ∧
      orbit next word = List.iterate next word (last + 1) := by
  obtain ⟨last, hrepeats, hfrom⟩ := orbitFrom_eq hnext word
    (2 ^ word.length) 0 (by omega) ∅ (by simp) (by simp)
  refine ⟨last, hrepeats, ?_⟩
  rw [orbit]
  simpa using congrArg List.reverse hfrom

end Orbit

end XorOrbit.Word
