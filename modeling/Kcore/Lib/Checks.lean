import Mathlib.Tactic.SplitIfs

/-!
# Checks in a row

A computation that can fail succeeds when each of its steps does.
-/

namespace Checks

def check (ok : Bool) (e : String) : Except String Unit := if ok then .ok () else .error e

theorem check_eq_ok {ok : Bool} {e : String} {u : Unit} : check ok e = .ok u ↔ ok = true := by
  cases ok <;> simp [check]

variable {ε α β : Type} {f : α → Except ε β} {l : List α}

theorem bind_eq_ok {x : Except ε α} {b : β} : (x >>= f) = .ok b ↔ ∃ a, x = .ok a ∧ f a = .ok b := by
  cases x with
  | error e => exact ⟨fun h => (nomatch h), fun ⟨_, h, _⟩ => (nomatch h)⟩
  | ok a =>
    constructor
    · intro h
      exact ⟨a, rfl, h⟩
    · rintro ⟨a', ha, h⟩
      cases ha
      exact h

theorem mapError_eq_ok {ε' : Type} {x : Except ε α} {f : ε → ε'} {a : α} : x.mapError f = .ok a ↔ x = .ok a := by
  cases x <;> simp [Except.mapError]

theorem guard_eq_ok {c : Prop} [Decidable c] {e : ε} {x : Except ε β} {b : β} :
    (if c then (.error e : Except ε α) >>= f else x) = .ok b ↔ ¬c ∧ x = .ok b := by
  split_ifs with h
  · exact ⟨fun h' => (nomatch h'), fun h' => absurd h h'.1⟩
  · exact ⟨fun h' => ⟨h, h'⟩, And.right⟩

theorem forM_eq_ok {f : α → Except ε Unit} : forM l f = .ok () ↔ ∀ a ∈ l, f a = .ok () := by
  induction l with
  | nil => simp [pure, Except.pure]
  | cons a l ih =>
    rw [List.forM_cons, bind_eq_ok, List.forall_mem_cons, ← ih]
    exact ⟨fun ⟨_, hhead, hrest⟩ => ⟨hhead, hrest⟩, fun ⟨hhead, hrest⟩ => ⟨(), hhead, hrest⟩⟩

/-- A list of computations that all succeed, with their results in order. -/
theorem map_eq_of_mapM {results : List β} (h : l.mapM f = .ok results) : l.map f = results.map .ok := by
  induction l generalizing results with
  | nil =>
    cases h
    rfl
  | cons a l ih =>
    rw [List.mapM_cons] at h
    obtain ⟨b, hb, h⟩ := bind_eq_ok.mp h
    obtain ⟨rest, hrest, h⟩ := bind_eq_ok.mp h
    cases h
    rw [List.map_cons, List.map_cons, hb, ih hrest]

theorem mapM_map_eq_ok {γ : Type} {f : β → Except ε γ} {key : α → β} {value : α → γ}
    (h : ∀ a ∈ l, f (key a) = .ok (value a)) : (l.map key).mapM f = .ok (l.map value) := by
  induction l with
  | nil => rfl
  | cons a l ih =>
    have hrest := ih fun b hb => h b (List.mem_cons_of_mem _ hb)
    rw [List.map_cons, List.mapM_cons, h a List.mem_cons_self, hrest]
    rfl

theorem exists_of_mem_mapM {results : List β} (h : l.mapM f = .ok results) : ∀ b ∈ results, ∃ a ∈ l, f a = .ok b := by
  intro b hb
  have hmem : .ok b ∈ l.map f := map_eq_of_mapM h ▸ List.mem_map_of_mem hb
  exact List.mem_map.mp hmem

/-- What each step of a loop keeps, the loop keeps. -/
theorem foldlM_keeps {σ : Type} {step : σ → α → Except ε σ} {P : σ → Prop} {s s' : σ}
    (hstep : ∀ s a s', P s → step s a = .ok s' → P s') (hs : P s) (h : l.foldlM step s = .ok s') : P s' := by
  induction l generalizing s with
  | nil =>
    cases h
    exact hs
  | cons a l ih =>
    rw [List.foldlM_cons] at h
    obtain ⟨next, hnext, h⟩ := bind_eq_ok.mp h
    exact ih (hstep s a next hs hnext) h

end Checks
