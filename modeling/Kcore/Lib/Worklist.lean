import Mathlib.Logic.Function.Iterate
import Mathlib.Data.List.Basic

/-!
# First-fit worklists

A worker goes through a list of items in order, takes the first that is not done and ready, and settles it: the
item changes the state and is then done, or it fails and may be taken again. Where the list grows only at its
end, a step on a part of the list is a step on the whole list or no step at all. So however the growth of the
list and the steps interleave, the worker runs along one sequence of configurations, and there is only one at
which it can come to rest.
-/

namespace Worklist

variable {ι α σ : Type} [DecidableEq ι]

/-- A kind of work: the names of items, when an item is ready, and what settling it does and whether it is then
done. -/
structure Work (ι α σ : Type) where
  name : α → ι
  ready : σ → α → Bool
  settle : σ → α → Bool × σ

/-- The names of the items that are done, and the state they left. -/
@[ext] structure Config (ι σ : Type) where
  done : List ι
  state : σ

namespace Work

variable (w : Work ι α σ)

def next (items : List α) (c : Config ι σ) : Option α :=
  items.find? fun x => decide (w.name x ∉ c.done) && w.ready c.state x

/-- The configuration after an item is settled. -/
def settled (c : Config ι σ) (x : α) : Config ι σ where
  done := if (w.settle c.state x).1 then w.name x :: c.done else c.done
  state := (w.settle c.state x).2

def advance (items : List α) (c : Config ι σ) : Config ι σ :=
  match w.next items c with
  | none => c
  | some x => w.settled c x

variable {w} {items : List α} {c : Config ι σ}

theorem advance_of_next {x : α} (h : w.next items c = some x) : w.advance items c = w.settled c x := by
  rw [advance, h]

theorem advance_of_idle (h : w.next items c = none) : w.advance items c = c := by
  rw [advance, h]

/-- A step on the first part of a list is a step on the list, or none. -/
theorem advance_append (w : Work ι α σ) (items more : List α) (c : Config ι σ) :
    w.advance items c = c ∨ w.advance items c = w.advance (items ++ more) c := by
  cases h : w.next items c with
  | none => exact .inl (advance_of_idle h)
  | some x =>
    have hmore : w.next (items ++ more) c = some x := by
      rw [next, List.find?_append, ← next, h]
      rfl
    exact .inr (by rw [advance_of_next h, advance_of_next hmore])

/-- Whether the worker gets from `start` to the configuration by steps on the list. -/
def Reaches (w : Work ι α σ) (items : List α) (start c : Config ι σ) : Prop := ∃ n, (w.advance items)^[n] start = c

theorem Reaches.refl (start : Config ι σ) : w.Reaches items start start := ⟨0, rfl⟩

theorem Reaches.advance {start : Config ι σ} (h : w.Reaches items start c) :
    w.Reaches items start (w.advance items c) := by
  obtain ⟨n, rfl⟩ := h
  exact ⟨n + 1, Function.iterate_succ_apply' _ _ _⟩

/-- Steps on the first part of a list reach nothing new. -/
theorem Reaches.advance_part {start : Config ι σ} {more : List α} (h : w.Reaches (items ++ more) start c) :
    w.Reaches (items ++ more) start (w.advance items c) := by
  rcases advance_append w items more c with heq | heq
  · rw [heq]; exact h
  · rw [heq]; exact h.advance

/-- The worker can come to rest in one configuration only. -/
theorem Reaches.idle_unique {start c' : Config ι σ} (h : w.Reaches items start c) (h' : w.Reaches items start c')
    (hidle : w.next items c = none) (hidle' : w.next items c' = none) : c = c' := by
  have hfixed : ∀ {a b : Config ι σ} (n m : Nat), n ≤ m → (w.advance items)^[n] start = a →
      (w.advance items)^[m] start = b → w.next items a = none → a = b := by
    intro a b n m hle ha hb hrest
    obtain ⟨k, rfl⟩ := Nat.exists_eq_add_of_le' hle
    rw [← hb, Function.iterate_add_apply, ha]
    exact (Function.iterate_fixed (advance_of_idle hrest) k).symm
  obtain ⟨n, hn⟩ := h
  obtain ⟨m, hm⟩ := h'
  rcases Nat.le_total n m with hle | hle
  · exact hfixed n m hle hn hm hidle
  · exact (hfixed m n hle hm hn hidle').symm

end Work

end Worklist
