import Mathlib.Data.List.Sort

/-!
# Positions in a sorted list

In a sorted list without repetitions an element stands at the position that is the number of smaller ones.
-/

namespace Sorting

variable {β : Type} [LinearOrder β] {l : List β} {x : β}

theorem idxOf_eq_countP (hl : l.Pairwise (· < ·)) (hx : x ∈ l) : l.idxOf x = l.countP (· < x) := by
  induction l with
  | nil => cases hx
  | cons a l ih =>
    obtain ⟨hlt, hl⟩ := List.pairwise_cons.mp hl
    by_cases hax : a = x
    · subst hax
      have hnone : l.countP (· < a) = 0 := List.countP_eq_zero.mpr fun b hb => by simpa using (hlt b hb).le
      simp [hnone]
    · have hxl : x ∈ l := (List.mem_cons.mp hx).resolve_left (Ne.symm hax)
      have hone := hlt x hxl
      rw [List.idxOf_cons_ne l hax, ih hl hxl, List.countP_cons_of_pos (by simpa using hone)]

theorem idxOf_insertionSort (hnodup : l.Nodup) (hx : x ∈ l) :
    (l.insertionSort (· ≤ ·)).idxOf x = l.countP (· < x) := by
  have hperm := List.perm_insertionSort (· ≤ ·) l
  have hsorted : (l.insertionSort (· ≤ ·)).Pairwise (· < ·) :=
    ((List.pairwise_insertionSort (· ≤ ·) l).and (hperm.nodup_iff.mpr hnodup)).imp fun h => lt_of_le_of_ne h.1 h.2
  rw [idxOf_eq_countP hsorted (hperm.mem_iff.mpr hx), hperm.countP_eq]

/-- A new element moves exactly those that are greater. -/
theorem idxOf_insertionSort_cons {y : β} (hnodup : l.Nodup) (hy : y ∉ l) (hx : x ∈ l) :
    ((y :: l).insertionSort (· ≤ ·)).idxOf x = (l.insertionSort (· ≤ ·)).idxOf x ↔ x < y := by
  have hne : x ≠ y := fun e => hy (e ▸ hx)
  rw [idxOf_insertionSort (List.nodup_cons.mpr ⟨hy, hnodup⟩) (List.mem_cons_of_mem _ hx),
    idxOf_insertionSort hnodup hx, List.countP_cons]
  by_cases hlt : y < x
  · simp [hlt, hlt.le]
  · have hgt : x < y := lt_of_le_of_ne (not_lt.mp hlt) hne
    simp [hlt, hgt]

end Sorting
