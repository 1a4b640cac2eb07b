import Mathlib.Data.List.Nodup

/-!
# Keyed tables

A table is a list of rows whose keys are pairwise distinct. Rows stay in the order in which their keys were
first stored, which is the order a scan of a table with an implicit row number visits them in. Storing a row
under a key that is present replaces that row in its place.
-/

namespace Keyed

/-- Rows in storage order, one for each key. -/
@[ext] structure Table {ρ κ : Type} (key : ρ → κ) where
  rows : List ρ
  nodup : (rows.map key).Nodup

variable {ρ κ : Type} {key : ρ → κ}

namespace Table

def empty : Table key := ⟨[], by simp⟩

def filter (t : Table key) (p : ρ → Bool) : Table key where
  rows := t.rows.filter p
  nodup := t.nodup.sublist ((List.filter_sublist).map key)

/-- Every row changed by `f`, which keeps the keys. -/
def map (t : Table key) (f : ρ → ρ) (hf : ∀ r, key (f r) = key r) : Table key where
  rows := t.rows.map f
  nodup := by
    have h : key ∘ f = key := funext hf
    rw [List.map_map, h]
    exact t.nodup

/-- The rows that satisfy `p` changed by `f`, which keeps the keys. -/
def update (t : Table key) (p : ρ → Bool) (f : ρ → ρ) (hf : ∀ r, key (f r) = key r) : Table key :=
  t.map (fun r => if p r then f r else r) fun r => by
    split
    · exact hf r
    · rfl

variable {t : Table key} {r : ρ} {k : κ}

theorem mem_update {p : ρ → Bool} {f : ρ → ρ} (hf : ∀ r, key (f r) = key r) :
    r ∈ (t.update p f hf).rows ↔ ∃ o ∈ t.rows, (if p o then f o else o) = r := by
  simp [update, map]

def any (t : Table key) (p : ρ → Bool) : Bool := t.rows.any p

theorem update_of_any_eq_false {p : ρ → Bool} (h : t.any p = false) (f : ρ → ρ) (hf : ∀ r, key (f r) = key r) :
    t.update p f hf = t := by
  refine Table.ext ?_
  unfold any at h
  rw [List.any_eq_false] at h
  refine (List.map_congr_left fun r hr => ?_).trans (List.map_id _)
  exact if_neg (h r hr)

variable [DecidableEq κ]

def get (t : Table key) (k : κ) : Option ρ := t.rows.find? (fun r => key r = k)

def has (t : Table key) (k : κ) : Bool := (t.get k).isSome

private theorem map_key_replace (l : List ρ) (r : ρ) :
    (l.map fun o => if key o = key r then r else o).map key = l.map key := by
  rw [List.map_map]
  refine List.map_congr_left fun o _ => ?_
  simp only [Function.comp]
  split
  · rename_i h; exact h.symm
  · rfl

/-- Store `r` under its key: in the place of the row that had the key, or at the end. -/
def put (t : Table key) (r : ρ) : Table key where
  rows := if key r ∈ t.rows.map key then t.rows.map fun o => if key o = key r then r else o else t.rows ++ [r]
  nodup := by
    split
    · rw [map_key_replace]; exact t.nodup
    · rename_i h
      rw [List.map_append, List.nodup_append]
      refine ⟨t.nodup, by simp, ?_⟩
      intro a ha b hb
      rw [List.map_singleton, List.mem_singleton] at hb
      subst hb
      exact fun hab => h (hab ▸ ha)

def erase (t : Table key) (k : κ) : Table key := t.filter fun r => key r ≠ k

@[simp] theorem get_empty (k : κ) : (empty : Table key).get k = none := rfl

theorem key_of_get (h : t.get k = some r) : key r = k := by
  have := List.find?_some h
  simpa using this

theorem mem_of_get (h : t.get k = some r) : r ∈ t.rows :=
  List.mem_of_find?_eq_some h

theorem get_of_mem (h : r ∈ t.rows) : t.get (key r) = some r := by
  obtain ⟨rows, nodup⟩ := t
  simp only [get]
  induction rows with
  | nil => simp at h
  | cons o l ih =>
    rw [List.map_cons, List.nodup_cons] at nodup
    rcases List.mem_cons.mp h with rfl | hl
    · simp
    · have hne : key o ≠ key r := fun e => nodup.1 (e ▸ List.mem_map_of_mem hl)
      simpa [List.find?_cons, hne] using ih nodup.2 hl

theorem get_eq_some_iff : t.get k = some r ↔ r ∈ t.rows ∧ key r = k :=
  ⟨fun h => ⟨mem_of_get h, key_of_get h⟩, fun h => h.2 ▸ get_of_mem h.1⟩

theorem mem_put {o : ρ} : o ∈ (t.put r).rows ↔ o = r ∨ (o ∈ t.rows ∧ key o ≠ key r) := by
  simp only [put]
  split
  · rename_i h
    obtain ⟨q, hq, hqr⟩ := List.mem_map.mp h
    simp only [List.mem_map]
    constructor
    · rintro ⟨p, hp, rfl⟩
      by_cases hpr : key p = key r <;> simp [hpr, hp]
    · rintro (rfl | ⟨ho, hne⟩)
      · exact ⟨q, hq, by simp [hqr]⟩
      · exact ⟨o, ho, by simp [hne]⟩
  · rename_i h
    simp only [List.mem_append, List.mem_singleton]
    constructor
    · rintro (ho | rfl)
      · exact .inr ⟨ho, fun e => h (e ▸ List.mem_map_of_mem ho)⟩
      · exact .inl rfl
    · rintro (rfl | ⟨ho, -⟩)
      · exact .inr rfl
      · exact .inl ho

@[simp] theorem get_put_self (t : Table key) (r : ρ) : (t.put r).get (key r) = some r :=
  get_of_mem (mem_put.mpr (.inl rfl))

theorem get_put_of_ne (h : key r ≠ k) : (t.put r).get k = t.get k := by
  refine Option.ext fun o => ?_
  rw [get_eq_some_iff, get_eq_some_iff, mem_put]
  constructor
  · rintro ⟨rfl | ⟨ho, -⟩, hk⟩
    · exact absurd hk h
    · exact ⟨ho, hk⟩
  · rintro ⟨ho, rfl⟩
    exact ⟨.inr ⟨ho, Ne.symm h⟩, rfl⟩

theorem get_put (t : Table key) (r : ρ) (k : κ) : (t.put r).get k = if key r = k then some r else t.get k := by
  split
  · rename_i h; rw [← h, get_put_self]
  · rename_i h; exact get_put_of_ne h

theorem mem_erase : r ∈ (t.erase k).rows ↔ r ∈ t.rows ∧ key r ≠ k := by
  simp [erase, filter]

theorem get_erase (t : Table key) (k k' : κ) : (t.erase k).get k' = if k = k' then none else t.get k' := by
  refine Option.ext fun r => ?_
  rw [get_eq_some_iff, mem_erase]
  split
  · rename_i h
    exact ⟨fun hr => absurd (hr.2.trans h.symm) hr.1.2, fun hr => absurd hr (by simp)⟩
  · rename_i h
    rw [get_eq_some_iff]
    exact ⟨fun hr => ⟨hr.1.1, hr.2⟩, fun hr => ⟨⟨hr.1, fun hk => h (hk.symm.trans hr.2)⟩, hr.2⟩⟩

theorem get_update (t : Table key) (p : ρ → Bool) (f : ρ → ρ) (hf : ∀ r, key (f r) = key r) (k : κ) :
    (t.update p f hf).get k = (t.get k).map fun r => if p r then f r else r := by
  have hkey : ∀ r, key (if p r then f r else r) = key r := by
    intro r
    split
    · exact hf r
    · rfl
  unfold update get map
  rw [List.find?_map]
  simp only [Function.comp_def, hkey]

end Table

end Keyed
