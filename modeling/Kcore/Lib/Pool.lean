import Kcore.Lib.Process

/-!
# Programs side by side

A pool is a state and the programs that run on it, each with a tag that says what is known of it. One program at a
time makes its next call; a program that has returned keeps its result. Programs that are safe when they start stay
safe, whatever the order of the calls, as good calls leave to the others what they rely on.
-/

structure Pool (τ E : Type) (R : E → Type) (α σ : Type) where
  state : σ
  tasks : List (τ × Process E R α)

namespace Pool

open Process

variable {τ E : Type} {R : E → Type} {α σ κ : Type}

def start (P : Pool τ E R α σ) (t : τ) (p : Process E R α) : Pool τ E R α σ := { P with tasks := P.tasks ++ [(t, p)] }

def next (P : Pool τ E R α σ) (i : Nat) : Option E := (P.tasks[i]?).bind fun t => t.2.next

/-- The next call of a program. -/
def advance (act : (e : E) → κ → σ → R e × σ) (P : Pool τ E R α σ) (i : Nat) (c : κ) : Pool τ E R α σ :=
  match P.tasks[i]? with
  | none => P
  | some (t, p) => ⟨(p.advance act c P.state).2, P.tasks.set i (t, (p.advance act c P.state).1)⟩

/-- Every program is safe from where the state is. -/
def Fine (C : Contract E R σ κ) (Q : τ → α → σ → Prop) (P : Pool τ E R α σ) : Prop :=
  ∀ t ∈ P.tasks, Safe C (Q t.1) t.2 P.state

variable {C : Contract E R σ κ} {Q : τ → α → σ → Prop} {P : Pool τ E R α σ} {i : Nat} {c : κ} {s : σ}

theorem advance_state (act : (e : E) → κ → σ → R e × σ) :
    (P.advance act i c).state = match P.next i with
      | some e => (act e c P.state).2
      | none => P.state := by
  unfold advance next
  cases P.tasks[i]? with
  | none => rfl
  | some t => exact advance_snd act c P.state t.2

theorem Fine.start {t : τ} {p : Process E R α} (h : P.Fine C Q) (hp : Safe C (Q t) p P.state) :
    (P.start t p).Fine C Q := by
  intro u hu
  rcases List.mem_append.mp hu with hu | hu
  · exact h u hu
  · rw [List.mem_singleton.mp hu]
    exact hp

/-- What the surroundings do to the state. -/
theorem Fine.change (h : P.Fine C Q) (hs : C.rely P.state s) : Fine C Q { P with state := s } :=
  fun t ht => (h t ht).interfere hs

theorem Fine.good {e : E} (h : P.Fine C Q) (he : P.next i = some e) (hc : C.allowed P.state e c) :
    C.good P.state e c := by
  unfold next at he
  obtain ⟨t, ht, hnext⟩ := Option.bind_eq_some_iff.mp he
  refine ((h t (List.mem_of_getElem? ht)).advance fun e' he' => ?_).1 e hnext
  rw [hnext] at he'
  cases he'
  exact hc

theorem Fine.advance (h : P.Fine C Q) (hc : ∀ e, P.next i = some e → C.allowed P.state e c) :
    (P.advance C.act i c).Fine C Q := by
  have hrely : ∀ e, P.next i = some e → C.rely P.state (C.act e c P.state).2 :=
    fun e he => C.keeps _ e c (hc e he) (h.good he (hc e he))
  have hstate := P.advance_state (i := i) (c := c) C.act
  intro u hu
  have hothers : u ∈ P.tasks → Safe C (Q u.1) u.2 (P.advance C.act i c).state := by
    intro hu
    rw [hstate]
    split
    · exact (h u hu).interfere (hrely _ ‹_›)
    · exact h u hu
  unfold Pool.advance Pool.next at *
  cases htask : P.tasks[i]? with
  | none =>
    simp only [htask] at hu hothers ⊢
    exact hothers hu
  | some t =>
    simp only [htask, Option.bind_some] at hu hc hothers ⊢
    rcases List.mem_or_eq_of_mem_set hu with hu | rfl
    · exact hothers hu
    · exact ((h t (List.mem_of_getElem? htask)).advance hc).2

theorem Fine.result {t : τ} {a : α} (h : P.Fine C Q) (ht : (t, ret a) ∈ P.tasks) : Q t a P.state :=
  h (t, ret a) ht P.state (C.refl _)

end Pool
