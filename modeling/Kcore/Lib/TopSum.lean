import Mathlib.Algebra.Order.BigOperators.Group.List
import Mathlib.Data.List.Sort

/-!
# The largest sum of at most `k` entries

Of a list in which no entry has a negative weight at most `k` entries are chosen. No choice weighs more than the first
`k` entries of the list sorted by weight (`sum_le_sum_take`).
-/

namespace TopSum

variable {α : Type} [AddCommMonoid α] [LinearOrder α] [IsOrderedAddMonoid α]

theorem sum_sublist_le_take {s m : List α} {k : ℕ} (hs : s.Pairwise (· ≥ ·)) (hpos : ∀ a ∈ s, 0 ≤ a)
    (hm : m.Sublist s) (hk : m.length ≤ k) : m.sum ≤ (s.take k).sum := by
  induction s generalizing m k with
  | nil => simp [List.sublist_nil.mp hm]
  | cons a s ih =>
    cases m with
    | nil => exact List.sum_nonneg fun x hx => hpos x (List.mem_of_mem_take hx)
    | cons b m =>
      cases k with
      | zero => simp at hk
      | succ k =>
        -- The first entry chosen is at most the largest; the others are chosen from the rest.
        have hba : b ≤ a := by
          rcases List.mem_cons.mp (hm.mem List.mem_cons_self) with rfl | hb
          · exact le_rfl
          · exact (List.pairwise_cons.mp hs).1 b hb
        have hrest : m.sum ≤ (s.take k).sum :=
          ih (List.pairwise_cons.mp hs).2 (fun x hx => hpos x (List.mem_cons_of_mem _ hx)) hm.tail (by simpa using hk)
        simpa using add_le_add hba hrest

theorem sum_le_sum_take {β : Type} {f : β → α} {sorted l chosen : List β} {k : ℕ}
    (hs : sorted.Pairwise fun a b => f b ≤ f a) (hpos : ∀ a ∈ sorted, 0 ≤ f a) (hperm : sorted.Perm l)
    (hc : chosen.Sublist l) (hk : chosen.length ≤ k) : (chosen.map f).sum ≤ ((sorted.take k).map f).sum := by
  obtain ⟨m, hm, hms⟩ := hc.subperm.trans hperm.symm.subperm
  rw [← (hm.map f).sum_eq, List.map_take]
  refine sum_sublist_le_take (List.pairwise_map.mpr hs) ?_ (hms.map f) (by rwa [List.length_map, hm.length_eq])
  intro a ha
  obtain ⟨b, hb, rfl⟩ := List.mem_map.mp ha
  exact hpos b hb

end TopSum
