import Mathlib.Data.List.Basic

/-!
# Overwriting parts of a list

Ranges of one list are written over another list of the same length, one after another. What results has the entries of
the one in the ranges and of the other elsewhere, in whatever order and with whatever overlaps the ranges are written;
so it is the one exactly when the two agree outside the ranges.
-/

namespace Patch

variable {α : Type}

def slice (l : List α) (offset count : Nat) : List α := (l.drop offset).take count

def overwrite (l : List α) (offset : Nat) (data : List α) : List α :=
  l.take offset ++ data ++ l.drop (offset + data.length)

section

variable {l data : List α} {offset count : Nat}

theorem length_slice (h : offset + count ≤ l.length) : (slice l offset count).length = count := by
  simp only [slice, List.length_take, List.length_drop]
  omega

theorem slice_append (more : List α) (h : offset + count ≤ l.length) :
    slice (l ++ more) offset count = slice l offset count := by
  unfold slice
  rw [List.drop_append_of_le_length (by omega), List.take_append_of_le_length (by rw [List.length_drop]; omega)]

theorem length_overwrite (h : offset + data.length ≤ l.length) : (overwrite l offset data).length = l.length := by
  simp only [overwrite, List.length_append, List.length_take, List.length_drop]
  omega

theorem getElem?_slice {i : Nat} (hi : i < count) : (slice l offset count)[i]? = l[offset + i]? := by
  rw [slice, List.getElem?_take_of_lt hi, List.getElem?_drop]

theorem getElem?_overwrite (h : offset + data.length ≤ l.length) (i : Nat) :
    (overwrite l offset data)[i]? = if offset ≤ i ∧ i < offset + data.length then data[i - offset]? else l[i]? := by
  have htake : (l.take offset).length = offset := by
    rw [List.length_take]
    omega
  unfold overwrite
  by_cases hlow : i < offset
  · rw [if_neg (by omega), List.append_assoc, List.getElem?_append_left (by omega), List.getElem?_take_of_lt hlow]
  by_cases hhigh : i < offset + data.length
  · rw [if_pos (by omega), List.append_assoc, List.getElem?_append_right (by omega), htake,
      List.getElem?_append_left (by omega)]
  · rw [if_neg (by omega), List.getElem?_append_right (by rw [List.length_append]; omega), List.length_append, htake,
      List.getElem?_drop]
    congr 1
    omega

end

/-- A list with the entries of `newer` where `covered` holds, and of `older` elsewhere. -/
structure Mixed (covered : Nat → Prop) (newer older l : List α) : Prop where
  length : l.length = older.length
  inside : ∀ i, covered i → l[i]? = newer[i]?
  outside : ∀ i, ¬ covered i → l[i]? = older[i]?

namespace Mixed

variable {covered : Nat → Prop} {newer older l : List α}

theorem none (newer older : List α) : Mixed (fun _ => False) newer older older :=
  ⟨rfl, fun _ h => h.elim, fun _ _ => rfl⟩

theorem congr {covered' : Nat → Prop} (h : Mixed covered newer older l) (heq : ∀ i, covered i ↔ covered' i) :
    Mixed covered' newer older l :=
  ⟨h.length, fun i hi => h.inside i ((heq i).mpr hi), fun i hi => h.outside i fun hc => hi ((heq i).mp hc)⟩

theorem overwrite (h : Mixed covered newer older l) (hlength : newer.length = older.length) (offset count : Nat)
    (hinside : offset + count ≤ newer.length) :
    Mixed (fun i => covered i ∨ (offset ≤ i ∧ i < offset + count)) newer older
      (Patch.overwrite l offset (slice newer offset count)) := by
  have hcount : (slice newer offset count).length = count := length_slice hinside
  have hfits : offset + (slice newer offset count).length ≤ l.length := by
    rw [hcount, h.length]
    omega
  refine ⟨(length_overwrite hfits).trans h.length, fun i hi => ?_, fun i hi => ?_⟩
  · rw [getElem?_overwrite hfits, hcount]
    split
    · rename_i hrange
      rw [getElem?_slice (by omega)]
      congr 1
      omega
    · rename_i hrange
      exact h.inside i (hi.resolve_right hrange)
  · rw [getElem?_overwrite hfits, hcount, if_neg (fun hrange => hi (.inr hrange))]
    exact h.outside i fun hc => hi (.inl hc)

/-- The result is the one list exactly when the two agree outside of what was written. -/
theorem eq_iff (h : Mixed covered newer older l) : l = newer ↔ ∀ i, ¬ covered i → older[i]? = newer[i]? := by
  constructor
  · rintro rfl i hi
    exact (h.outside i hi).symm
  · intro hagree
    refine List.ext_getElem? fun i => ?_
    by_cases hi : covered i
    · exact h.inside i hi
    · exact (h.outside i hi).trans (hagree i hi)

end Mixed

end Patch
