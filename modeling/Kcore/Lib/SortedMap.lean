import Mathlib.Order.Lattice
import Mathlib.Data.List.Nodup

/-!
# Maps in the order of their keys

A map is a list of pairs with strictly increasing keys, which is the order an iteration over a balanced tree visits
them in.
-/

structure SortedMap (κ ν : Type) [LinearOrder κ] where
  entries : List (κ × ν)
  sorted : entries.Pairwise fun a b => a.1 < b.1

namespace SortedMap

variable {κ ν : Type} [LinearOrder κ]

def empty : SortedMap κ ν := ⟨[], List.Pairwise.nil⟩

def get? (m : SortedMap κ ν) (k : κ) : Option ν := (m.entries.find? fun e => e.1 = k).map Prod.snd

def keys (m : SortedMap κ ν) : List κ := m.entries.map Prod.fst

def filter (m : SortedMap κ ν) (p : κ → ν → Bool) : SortedMap κ ν where
  entries := m.entries.filter fun e => p e.1 e.2
  sorted := m.sorted.filter _

/-- A value stored under a key replaces the one that is there. -/
def insert (m : SortedMap κ ν) (k : κ) (v : ν) : SortedMap κ ν where
  entries := m.entries.filter (fun e => e.1 < k) ++ (k, v) :: m.entries.filter fun e => k < e.1
  sorted := by
    refine List.pairwise_append.mpr ⟨m.sorted.filter _, List.pairwise_cons.mpr ⟨?_, m.sorted.filter _⟩, ?_⟩
    · intro e he
      exact of_decide_eq_true (List.mem_filter.mp he).2
    · intro e he e' he'
      have hlow := of_decide_eq_true (List.mem_filter.mp he).2
      rcases List.mem_cons.mp he' with rfl | he'
      · exact hlow
      · exact hlow.trans (of_decide_eq_true (List.mem_filter.mp he').2)

variable {m : SortedMap κ ν}

theorem mem_filter {p : κ → ν → Bool} {e : κ × ν} : e ∈ (m.filter p).entries ↔ e ∈ m.entries ∧ p e.1 e.2 = true :=
  List.mem_filter

theorem nodup_keys (m : SortedMap κ ν) : m.keys.Nodup :=
  List.pairwise_map.mpr (m.sorted.imp fun h => ne_of_lt h)

theorem eq_of_fst_eq {e e' : κ × ν} (he : e ∈ m.entries) (he' : e' ∈ m.entries) (hkey : e.1 = e'.1) : e = e' :=
  List.inj_on_of_nodup_map m.nodup_keys he he' hkey

theorem get?_eq_some {k : κ} {v : ν} : m.get? k = some v ↔ (k, v) ∈ m.entries := by
  unfold get?
  rw [Option.map_eq_some_iff]
  constructor
  · rintro ⟨e, he, rfl⟩
    have hkey : e.1 = k := by simpa using List.find?_some he
    exact hkey ▸ List.mem_of_find?_eq_some he
  · intro h
    cases hfind : m.entries.find? fun e => e.1 = k with
    | none =>
      have hne := List.find?_eq_none.mp hfind _ h
      simp at hne
    | some e =>
      have hkey : e.1 = k := by simpa using List.find?_some hfind
      refine ⟨e, rfl, ?_⟩
      rw [eq_of_fst_eq (List.mem_of_find?_eq_some hfind) h hkey]

theorem mem_insert {k : κ} {v : ν} {e : κ × ν} : e ∈ (m.insert k v).entries ↔ e = (k, v) ∨ e ∈ m.entries ∧ e.1 ≠ k := by
  simp only [insert, List.mem_append, List.mem_cons, List.mem_filter, decide_eq_true_eq, ne_iff_lt_or_gt]
  tauto

theorem get?_insert (m : SortedMap κ ν) (k k' : κ) (v : ν) :
    (m.insert k v).get? k' = if k' = k then some v else m.get? k' := by
  ext w
  rw [get?_eq_some, mem_insert]
  split_ifs with hk
  · simp [hk, eq_comm]
  · rw [get?_eq_some]
    simp [hk]

theorem get?_filter (m : SortedMap κ ν) (p : κ → ν → Bool) (k : κ) : (m.filter p).get? k = (m.get? k).filter (p k) := by
  ext v
  rw [get?_eq_some, mem_filter, Option.filter_eq_some_iff, get?_eq_some]

end SortedMap
