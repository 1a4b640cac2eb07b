import Mathlib.Data.List.Nodup

/-!
# Two columns read side by side

The entries of a list are stored in two columns: one keeps a key of every entry, the other the parts of all entries, one
after the other. Who reads the columns position by position gives the k-th part to the k-th key, whatever entry it
came from.
-/

namespace Columns

variable {α κ β : Type} {key : α → κ} {parts : α → List β}

/-- Every entry has one part, up to a point from which none has any. -/
def InStep (parts : α → List β) : List α → Prop
  | [] => True
  | a :: l => ((parts a).length = 1 ∧ InStep parts l) ∨ ∀ b ∈ a :: l, parts b = []

theorem inStep_map {γ : Type} {f : β → γ} {l : List α} :
    InStep (fun a => (parts a).map f) l ↔ InStep parts l := by
  induction l with
  | nil => exact Iff.rfl
  | cons a l ih => simp only [InStep, List.length_map, List.map_eq_nil_iff, ih]

def keyed (key : α → κ) (parts : α → List β) (l : List α) : List (κ × β) :=
  l.flatMap fun a => (parts a).map fun b => (key a, b)

theorem key_mem_of_mem_keyed {l : List α} {pair : κ × β} (h : pair ∈ keyed key parts l) : pair.1 ∈ l.map key := by
  obtain ⟨a, ha, h⟩ := List.mem_flatMap.mp h
  obtain ⟨b, -, rfl⟩ := List.mem_map.mp h
  exact List.mem_map_of_mem ha

theorem keyed_eq_nil {l : List α} (h : ∀ a ∈ l, parts a = []) : keyed key parts l = [] :=
  List.flatMap_eq_nil_iff.mpr fun a ha => by rw [h a ha, List.map_nil]

/-- Reading the columns side by side gives each entry its own parts exactly when the parts are in step with the
entries. -/
theorem zip_eq_keyed_iff {l : List α} (h : (l.map key).Nodup) :
    (l.map key).zip (l.flatMap parts) = keyed key parts l ↔ InStep parts l := by
  induction l with
  | nil => simp [keyed, InStep]
  | cons a l ih =>
    obtain ⟨hnew, hl⟩ := List.nodup_cons.mp h
    have hkeyed : keyed key parts (a :: l) = (parts a).map (fun b => (key a, b)) ++ keyed key parts l := rfl
    rw [hkeyed, List.map_cons, List.flatMap_cons]
    -- The cases are an entry without parts, with one, and with more: only the second keeps the columns in step.
    match hparts : parts a with
    | [] =>
      have hrest : InStep parts (a :: l) ↔ ∀ b ∈ l, parts b = [] := by simp [InStep, hparts]
      rw [hrest, List.nil_append, List.map_nil, List.nil_append]
      constructor
      · intro heq b hb
        by_contra hne
        obtain ⟨p, rest, hp⟩ := List.exists_cons_of_ne_nil
          fun hnil : l.flatMap parts = [] => hne (List.flatMap_eq_nil_iff.mp hnil b hb)
        rw [hp, List.zip_cons_cons] at heq
        exact hnew (key_mem_of_mem_keyed (heq ▸ List.mem_cons_self))
      · intro hnone
        rw [List.flatMap_eq_nil_iff.mpr hnone, keyed_eq_nil hnone, List.zip_nil_right]
    | [p] =>
      have hrest : InStep parts (a :: l) ↔ InStep parts l := by simp [InStep, hparts]
      rw [hrest, ← ih hl]
      simp
    | p :: q :: ps =>
      have hrest : ¬ InStep parts (a :: l) := by simp [InStep, hparts]
      refine iff_of_false (fun heq => ?_) hrest
      have hpair : (key a, q) ∈ (l.map key).zip (q :: ps ++ l.flatMap parts) := by
        have htail : (l.map key).zip (q :: ps ++ l.flatMap parts) =
            (key a, q) :: (ps.map (fun b => (key a, b)) ++ keyed key parts l) := (List.cons.inj heq).2
        rw [htail]
        exact List.mem_cons_self
      exact hnew (List.of_mem_zip hpair).1

end Columns
