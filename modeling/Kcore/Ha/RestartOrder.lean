import Mathlib.Data.Prod.Lex
import Mathlib.Data.String.Basic
import Kcore.Store.Rows
import Kcore.Lib.Greedy

/-!
# The order in which guests restart

A guest whose labels name another under `kcore.restartAfter` starts after it; otherwise the order is by priority, larger
memory and id. `sortForRestart` takes a guest to wait for itself if the label holds its own name.
`restart_order_iff` says for which lists the order is still the right one, whatever the priorities are.
-/

namespace Kcore.Ha

def priorityRank (priority : String) : Nat :=
  if priority = "high" then 0 else if priority = "low" then 2 else 1

section

-- `serde_json::from_str` on a label column.
variable (fromStr : String → Option Value)

def restartAfterLabel (labels : String) : String :=
  match fromStr labels with
  | none => ""
  | some value => trim (((value.get "kcore.restartAfter").bind Value.asStr).getD "")

def restartsAfter (vm other : VmRow) : Bool :=
  let after := restartAfterLabel fromStr vm.labels
  after != "" && (other.name == after || other.id == after)

def restartKey (priorityOf : VmRow → String) (vm : VmRow) : ℕ ×ₗ ℤᵒᵈ ×ₗ String :=
  toLex (priorityRank (priorityOf vm), toLex (OrderDual.toDual vm.memoryBytes, vm.id))

/-- The loop takes the first of the least ready rows out of those that are pending, or the first row of all. -/
def sortForRestart (vms : List VmRow) (priorityOf : VmRow → String) : List VmRow :=
  if vms.length < 2 then vms
  else Greedy.order (restartsAfter fromStr) (restartKey priorityOf) vms.length vms

theorem sortForRestart_eq (vms : List VmRow) (priorityOf : VmRow → String) :
    sortForRestart fromStr vms priorityOf =
      Greedy.order (restartsAfter fromStr) (restartKey priorityOf) vms.length vms := by
  unfold sortForRestart
  split
  · rename_i hshort
    have hperm := Greedy.order_perm (restartsAfter fromStr) (restartKey priorityOf) vms.length vms rfl
    cases vms with
    | nil => rfl
    | cons vm rest =>
      obtain rfl : rest = [] := List.length_eq_zero_iff.mp (by simp only [List.length_cons] at hshort; omega)
      exact (List.perm_singleton.mp hperm).symm
  · rfl

abbrev AcyclicLabels (vms : List VmRow) : Prop := Greedy.Acyclic (restartsAfter fromStr) vms

/-- A guest that names itself and the guests it waits for, before all others. -/
theorem restartKey_lt {p : VmRow → Prop} [DecidablePred p] {a b : VmRow} (ha : p a) (hb : ¬ p b) :
    restartKey (fun vm => if p vm then "high" else "low") a <
      restartKey (fun vm => if p vm then "high" else "low") b := by
  refine Prod.Lex.toLex_lt_toLex.mpr (Or.inl ?_)
  simp [priorityRank, ha, hb]

/-- Whatever the priorities are, the result has the same guests, and if no labels form a cycle each of them stands in
its place. This is so exactly if every guest that names itself is the first in the list of the guests that it does not
wait for, and each of these names one of them. -/
theorem restart_order_iff (vms : List VmRow) :
    (∀ priorityOf, (sortForRestart fromStr vms priorityOf).Perm vms ∧
      (AcyclicLabels fromStr vms →
        Greedy.Right (restartsAfter fromStr) (restartKey priorityOf) (sortForRestart fromStr vms priorityOf))) ↔
    (AcyclicLabels fromStr vms → ∀ vm ∈ vms, restartsAfter fromStr vm vm = true →
      Greedy.SettledAt (restartsAfter fromStr) vms vm) := by
  have hstart := Greedy.Along.start (restartsAfter fromStr) vms
  constructor
  · intro h hac vm hvm hself
    classical
    have hright := (h fun other =>
      if other = vm ∨ Greedy.Reach (restartsAfter fromStr) vms vm other then "high" else "low").2 hac
    rw [sortForRestart_eq] at hright
    exact Greedy.settledAt_of_right hac hself (fun a b ha hb => restartKey_lt ha hb) _ _ rfl hstart hvm
      Greedy.others_sublist hright
  · intro h priorityOf
    rw [sortForRestart_eq]
    refine ⟨Greedy.order_perm _ _ _ _ rfl, fun hac => ?_⟩
    exact Greedy.right_order hac (h hac) _ _ rfl hstart fun _ _ _ => Greedy.others_sublist

end

def webLabel (text : String) : Option Value :=
  if text = "\x7b\"kcore.restartAfter\":\"web\"\x7d" then some (.object [("kcore.restartAfter", .string "web")])
  else none

def guest (name labels : String) : VmRow := { VmRow.sample name with labels }

def dbAndWeb : List VmRow := [guest "db" "", guest "web" "\x7b\"kcore.restartAfter\":\"web\"\x7d"]

def webFirst (vm : VmRow) : String := if vm.name = "web" then "high" else "low"

/-- The guest of high priority is started last, because it names itself. -/
theorem self_named_starts_last : AcyclicLabels webLabel dbAndWeb ∧
    ¬ Greedy.Right (restartsAfter webLabel) (restartKey webFirst) (sortForRestart webLabel dbAndWeb webFirst) := by
  have hnone : ∀ x ∈ dbAndWeb, ∀ y ∈ dbAndWeb.erase x, restartsAfter webLabel x y = false := by decide
  have hdep : ∀ x y, ¬ Greedy.Dep (restartsAfter webLabel) dbAndWeb x y := fun x y h =>
    absurd h.2.2 (by simp [hnone x h.1 y h.2.1])
  constructor
  · intro x hx
    cases hx with
    | single h => exact hdep _ _ h
    | tail _ h => exact hdep _ _ h
  · have hsorted : sortForRestart webLabel dbAndWeb webFirst = dbAndWeb := by decide
    rw [hsorted]
    rintro ⟨-, hle, -⟩
    have hkey := hle _ (List.mem_of_mem_getLast? rfl) (hnone _ (by decide))
    revert hkey
    decide

end Kcore.Ha
