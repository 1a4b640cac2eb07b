/-!
# Runs of a machine

A machine is a function that takes a state and an action to the next state, and a run is a list of actions.
`Along` says that a property holds in every state of a run, `Each` that every action is taken in a state that
allows it. An invariant that each allowed action preserves holds along every run of allowed actions; and if it
breaks at each other action, the runs along which it holds are exactly those.
-/

namespace Machine

variable {S A : Type} (step : S → A → S)

def run (s : S) (acts : List A) : S := acts.foldl step s

/-- The property holds in every state of the run. -/
def Along (P : S → Prop) : S → List A → Prop
  | s, [] => P s
  | s, a :: acts => P s ∧ Along P (step s a) acts

/-- Every action of the run is taken in a state that allows it. -/
def Each (G : S → A → Prop) : S → List A → Prop
  | _, [] => True
  | s, a :: acts => G s a ∧ Each G (step s a) acts

instance decidableEach (G : S → A → Prop) [∀ s a, Decidable (G s a)] (s : S) (acts : List A) :
    Decidable (Each step G s acts) :=
  match acts with
  | [] => inferInstanceAs (Decidable True)
  | a :: acts =>
    have := decidableEach G (step s a) acts
    inferInstanceAs (Decidable (G s a ∧ Each step G (step s a) acts))

variable {step} {P Q : S → Prop} {G : S → A → Prop} {s : S} {acts : List A}

theorem Along.last (h : Along step P s acts) : P (run step s acts) := by
  induction acts generalizing s with
  | nil => exact h
  | cons a acts ih => exact ih h.2

/-- The invariant rule. -/
theorem along_of_each (hs : P s) (hstep : ∀ s a, P s → G s a → P (step s a)) (h : Each step G s acts) :
    Along step P s acts := by
  induction acts generalizing s with
  | nil => exact hs
  | cons a acts ih => exact ⟨hs, ih (hstep s a hs h.1) h.2⟩

theorem Along.mono (h : Along step P s acts) (hPQ : ∀ s, P s → Q s) : Along step Q s acts := by
  induction acts generalizing s with
  | nil => exact hPQ s h
  | cons a acts ih => exact ⟨hPQ s h.1, ih h.2⟩

theorem Along.each (h : Along step P s acts) : Each step (fun s _ => P s) s acts := by
  induction acts generalizing s with
  | nil => trivial
  | cons a acts ih => exact ⟨h.1, ih h.2⟩

theorem Each.mono {G' : S → A → Prop} (h : Each step G s acts) (hG : ∀ s a, G s a → G' s a) :
    Each step G' s acts := by
  induction acts generalizing s with
  | nil => trivial
  | cons a acts ih => exact ⟨hG s a h.1, ih h.2⟩

theorem Each.and {G' : S → A → Prop} (h : Each step G s acts) (h' : Each step G' s acts) :
    Each step (fun s a => G s a ∧ G' s a) s acts := by
  induction acts generalizing s with
  | nil => trivial
  | cons a acts ih => exact ⟨⟨h.1, h'.1⟩, ih h.2 h'.2⟩

theorem each_of_mem (h : ∀ s, ∀ a ∈ acts, G s a) : Each step G s acts := by
  induction acts generalizing s with
  | nil => trivial
  | cons a acts ih => exact ⟨h s a List.mem_cons_self, ih fun s b hb => h s b (List.mem_cons_of_mem a hb)⟩

/-- Two conditions on the actions that agree wherever `H` holds. -/
theorem each_congr {H G' : S → A → Prop} (hH : Each step H s acts) (h : ∀ s a, H s a → (G s a ↔ G' s a)) :
    Each step G s acts ↔ Each step G' s acts := by
  induction acts generalizing s with
  | nil => exact Iff.rfl
  | cons a acts ih => exact and_congr (h s a hH.1) (ih hH.2)

/-- An invariant that breaks at each action that is not allowed, in the runs along which `Q` holds. -/
theorem along_iff_each (hQ : Along step Q s acts) (hstep : ∀ s a, Q s → P s → (P (step s a) ↔ G s a)) :
    Along step P s acts ↔ P s ∧ Each step G s acts := by
  induction acts generalizing s with
  | nil => exact ⟨fun hs => ⟨hs, trivial⟩, fun hs => hs.1⟩
  | cons a acts ih =>
    constructor
    · rintro ⟨hs, hrest⟩
      have hnext := (ih hQ.2).mp hrest
      exact ⟨hs, (hstep s a hQ.1 hs).mp hnext.1, hnext.2⟩
    · rintro ⟨hs, ha, hrest⟩
      exact ⟨hs, (ih hQ.2).mpr ⟨(hstep s a hQ.1 hs).mpr ha, hrest⟩⟩

/-! ### Progress -/

/-- A count is smaller if nothing new is counted and something is not counted any more. -/
theorem countP_lt_countP {α : Type} {p q : α → Bool} {l : List α} (h : ∀ x ∈ l, q x = true → p x = true)
    {x : α} (hx : x ∈ l) (hp : p x = true) (hq : q x = false) : l.countP q < l.countP p := by
  induction l with
  | nil => exact absurd hx List.not_mem_nil
  | cons y l ih =>
    rw [List.countP_cons, List.countP_cons]
    have hy := h y List.mem_cons_self
    have hle := List.countP_mono_left fun z hz => h z (List.mem_cons_of_mem y hz)
    rcases List.mem_cons.mp hx with rfl | hx
    · simp only [hp, hq, if_true, Bool.false_eq_true, if_false]
      omega
    · have hlt := ih (fun z hz => h z (List.mem_cons_of_mem y hz)) hx
      cases hqy : q y with
      | false => simp only [Bool.false_eq_true, if_false]; omega
      | true => simp only [hy hqy, if_true]; omega

end Machine
