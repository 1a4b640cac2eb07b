import Mathlib.Data.List.Flatten
import Mathlib.Data.List.Nodup
import Mathlib.Data.List.Perm.Subperm

/-!
# Grouping a list by a key

Entries are put one after the other into the first group that has their key, or into a new one at the end. The groups
are the classes of the key, in the order in which the keys first appear (`Grouped`).
-/

namespace Classes

variable {α κ : Type} [DecidableEq κ] (k : α → κ)

def insert (x : α) : List (List α) → List (List α)
  | [] => [[x]]
  | g :: groups => if g.head?.map k = some (k x) then (g ++ [x]) :: groups else g :: insert x groups

def ofKey (l : List α) (c : κ) : List α := l.filter (k · = c)

/-- The groups of the entries `l`, one for each key. -/
structure Grouped (l : List α) (keys : List κ) (groups : List (List α)) : Prop where
  nodup : keys.Nodup
  mem_keys : ∀ c, c ∈ keys ↔ c ∈ l.map k
  groups_eq : groups = keys.map (ofKey k l)

variable {k} {l : List α} {keys : List κ} {groups : List (List α)} {x : α} {c : κ}

theorem ofKey_append_of_ne (h : k x ≠ c) : ofKey k (l ++ [x]) c = ofKey k l c := by simp [ofKey, h]

theorem ofKey_append_self : ofKey k (l ++ [x]) (k x) = ofKey k l (k x) ++ [x] := by simp [ofKey]

theorem head?_ofKey (h : c ∈ l.map k) : (ofKey k l c).head?.map k = some c := by
  cases hg : ofKey k l c with
  | nil =>
    obtain ⟨y, hy, rfl⟩ := List.mem_map.mp h
    simpa using List.filter_eq_nil_iff.mp hg y hy
  | cons y rest =>
    have hy := (List.mem_filter.mp (hg ▸ List.mem_cons_self : y ∈ ofKey k l c)).2
    simpa using hy

theorem insert_map_ofKey (hn : keys.Nodup) (hk : ∀ c ∈ keys, c ∈ l.map k) :
    insert k x (keys.map (ofKey k l)) =
      if k x ∈ keys then keys.map (ofKey k (l ++ [x])) else keys.map (ofKey k l) ++ [[x]] := by
  induction keys with
  | nil => rfl
  | cons c keys ih =>
    obtain ⟨hc, hn⟩ := List.nodup_cons.mp hn
    have hrest := ih hn fun c hc => hk c (List.mem_cons_of_mem _ hc)
    rw [List.map_cons, insert, head?_ofKey (hk c List.mem_cons_self), hrest]
    by_cases hx : k x = c
    · subst hx
      have hsame : keys.map (ofKey k (l ++ [x])) = keys.map (ofKey k l) :=
        List.map_congr_left fun c hmem => ofKey_append_of_ne fun e => hc (e ▸ hmem)
      simp [ofKey_append_self, hsame]
    · rw [if_neg fun e => hx (Option.some.inj e).symm]
      by_cases hmem : k x ∈ keys <;> simp [hx, hmem, ofKey_append_of_ne hx]

theorem Grouped.insert (h : Grouped k l keys groups) (x : α) :
    ∃ keys', Grouped k (l ++ [x]) keys' (Classes.insert k x groups) := by
  have heq := insert_map_ofKey (x := x) h.nodup fun c => (h.mem_keys c).mp
  rw [← h.groups_eq] at heq
  by_cases hx : k x ∈ keys
  · refine ⟨keys, h.nodup, fun c => ?_, heq.trans (if_pos hx)⟩
    rw [List.map_append, List.mem_append, ← h.mem_keys]
    exact ⟨.inl, fun hc => hc.elim id fun hc => List.mem_singleton.mp hc ▸ hx⟩
  · have hold : ∀ c ∈ keys, ofKey k (l ++ [x]) c = ofKey k l c := fun c hc => ofKey_append_of_ne fun e => hx (e ▸ hc)
    have hnew : ofKey k l (k x) = [] := List.filter_eq_nil_iff.mpr fun y hy hkey =>
      hx ((h.mem_keys _).mpr (List.mem_map.mpr ⟨y, hy, by simpa using hkey⟩))
    refine ⟨keys ++ [k x], ?_, fun c => ?_, ?_⟩
    · exact List.nodup_append.mpr ⟨h.nodup, List.nodup_singleton _, fun a ha b hb e => hx (by simp_all)⟩
    · simp [h.mem_keys]
    · rw [heq, if_neg hx, h.groups_eq, List.map_append, List.map_congr_left hold, List.map_singleton,
        ofKey_append_self, hnew, List.nil_append]

theorem Grouped.ne_nil (h : Grouped k l keys groups) {g : List α} (hg : g ∈ groups) : g ≠ [] := by
  obtain ⟨c, hc, rfl⟩ := List.mem_map.mp (h.groups_eq ▸ hg)
  intro hnil
  have hhead := head?_ofKey ((h.mem_keys c).mp hc)
  rw [hnil] at hhead
  cases hhead

/-- A new key makes a new group at the end. -/
theorem Grouped.insert_eq_append (h : Grouped k l keys groups) (hx : k x ∉ l.map k) :
    Classes.insert k x groups = groups ++ [[x]] := by
  rw [h.groups_eq, insert_map_ofKey h.nodup fun c => (h.mem_keys c).mp, if_neg fun hc => hx ((h.mem_keys _).mp hc)]

theorem perm_flatten_ofKey (hn : keys.Nodup) : (l.filter (k · ∈ keys)).Perm (keys.map (ofKey k l)).flatten := by
  induction keys with
  | nil => simp
  | cons c keys ih =>
    obtain ⟨hc, hn⟩ := List.nodup_cons.mp hn
    have hsplit := List.filter_append_perm (k · = c) (l.filter (k · ∈ c :: keys))
    have hfirst : (l.filter (k · ∈ c :: keys)).filter (k · = c) = ofKey k l c := by
      rw [List.filter_filter]
      exact List.filter_congr fun y _ => by by_cases hy : k y = c <;> simp [hy]
    have hrest : (l.filter (k · ∈ c :: keys)).filter (fun y => !decide (k y = c)) = l.filter (k · ∈ keys) := by
      rw [List.filter_filter]
      exact List.filter_congr fun y _ => by by_cases hy : k y = c <;> simp [hy, hc]
    rw [hfirst, hrest] at hsplit
    exact hsplit.symm.trans ((ih hn).append_left _)

theorem Grouped.exists_chosen (h : Grouped k l keys groups) (picks : List κ) :
    ∃ chosen : List (List α), chosen.Sublist groups ∧ chosen.length ≤ picks.length ∧
      (l.filter (k · ∈ picks)).Perm chosen.flatten := by
  have hn := h.nodup.filter (· ∈ picks)
  refine ⟨(keys.filter (· ∈ picks)).map (ofKey k l), ?_, ?_, ?_⟩
  · rw [h.groups_eq]
    exact List.filter_sublist.map _
  · rw [List.length_map]
    exact (List.subperm_of_subset hn fun c hc => by simpa using (List.mem_filter.mp hc).2).length_le
  · have hsame : l.filter (k · ∈ picks) = l.filter (k · ∈ keys.filter (· ∈ picks)) := by
      refine List.filter_congr fun y hy => ?_
      simp [h.mem_keys, List.mem_map_of_mem hy]
    rw [hsame]
    exact perm_flatten_ofKey hn

theorem Grouped.perm_flatten (h : Grouped k l keys groups) : l.Perm groups.flatten := by
  have hall : l.filter (k · ∈ keys) = l := List.filter_eq_self.mpr fun y hy => by
    simp [h.mem_keys, List.mem_map_of_mem hy]
  have hperm := perm_flatten_ofKey (k := k) (l := l) h.nodup
  rwa [hall, ← h.groups_eq] at hperm

end Classes
