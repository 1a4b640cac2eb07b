import Kcore.Slurm.Deletion
import Mathlib.Logic.Function.Basic

/-!
# Nodes that leave a Slurm cluster

A pass of the reconciler cordons the compute members of a cluster and sends every member a fragment that enables Slurm;
the pass that deletes the cluster sends a disabling fragment to every member and makes the compute members ready again.

What a node was before is not recorded: the cordon has no owner, and a member that a change of the spec drops is not
visited again. `left_as_found` gives the runs in which every node is left as it was found nevertheless.
-/

namespace Kcore.Slurm.Membership

open Machine
open Function (update update_self update_of_ne)

inductive NodeStatus where
  | ready
  | cordoned
  | draining
  | drained
  deriving DecidableEq

structure Cluster where
  row : Row
  compute : List String

def Cluster.members (c : Cluster) : List String := c.row.members

/-- What sending a fragment to a node comes to. The node may accept it and then fail to rebuild, and the call may fail
before or after it is accepted. -/
inductive Sent where
  | accepted
  | rebuildFails
  | refused
  | error (afterwards : Bool)

/-- What the nodes answer during a pass: whether the checks in advance find nothing, how each node takes its fragment,
and whether `slurmctld` is active, if the controller answers. -/
structure Answers where
  preflight : Bool
  sent : String → Sent
  slurmctld : Option Bool

/-- `enabled` says whether the last fragment a node accepted enables Slurm. The last three fields are for the statements
only: the holds of the operator that are in force, the nodes that are no compute members any more, and whether the last
step was a pass that reported the cluster ready. -/
structure State where
  cluster : Option Cluster
  status : String → NodeStatus
  enabled : String → Bool
  held : String → Bool
  left : String → Bool
  reported : Bool

/-- A fragment for every node of the list, in turn: what the nodes have then, and whether there was a failure. An error
ends a pass that applies (the result is `none`), and is one more failure in a pass that deletes. -/
def sendAll (enable : Bool) (sent : String → Sent) :
    List String → (String → Bool) → Bool → (String → Bool) × Option Bool
  | [], enabled, failures => (enabled, some failures)
  | n :: rest, enabled, failures =>
    match sent n with
    | .accepted => sendAll enable sent rest (update enabled n enable) failures
    | .rebuildFails => sendAll enable sent rest (update enabled n enable) true
    | .refused => sendAll enable sent rest enabled true
    | .error afterwards =>
      let enabled := if afterwards then update enabled n enable else enabled
      if enable then (enabled, none) else sendAll enable sent rest enabled true

def Cluster.report (c : Cluster) (phase : Phase) : Cluster :=
  { c with row := { c.row with phase, observedGeneration := if phase = .ready then c.row.generation else 0 } }

def reconcileApply (s : State) (c : Cluster) (answers : Answers) : State :=
  if answers.preflight then
    let status := fun n => if n ∈ c.compute ∧ s.status n = .ready then .cordoned else s.status n
    let (enabled, outcome) := sendAll true answers.sent c.members s.enabled false
    let phase : Phase := match outcome, answers.slurmctld with
      | some false, some true => .ready
      | some false, some false => .degraded
      | _, _ => .failed
    { s with cluster := some (c.report phase), status, enabled, reported := decide (phase = .ready) }
  else { s with cluster := some (c.report .failed), reported := false }

def State.dropped (s : State) (c : Cluster) : State :=
  { s with
    cluster := none
    status := fun n => if n ∈ c.compute then .ready else s.status n
    left := fun n => s.left n || decide (n ∈ c.compute)
    reported := false }

/-- `reconcile_delete`. It waits for the units of the controller to stop, and goes on if they do not. -/
def reconcileDelete (s : State) (c : Cluster) (answers : Answers) : State :=
  let (enabled, outcome) := sendAll false answers.sent c.members s.enabled false
  if outcome = some false then { s with enabled }.dropped c
  else { s with cluster := some (c.report .degraded), enabled, reported := false }

/-- `create_slurm_cluster` with a spec that is accepted and differs from the one that is stored. -/
def apply (s : State) (members compute : List String) : State :=
  let row : Row := match s.cluster with
    | none => ⟨members, 1, .pending, 0⟩
    | some c => ⟨members, min (c.row.generation + 1) 9223372036854775807, .applying, 0⟩
  { s with
    cluster := some ⟨row, compute⟩
    left := fun n =>
      if n ∈ compute then false else s.left n || s.cluster.any fun c => decide (n ∈ c.compute)
    reported := false }

inductive Step where
  | apply (members compute : List String)
  | tick (answers : Answers)
  | delete
  | deleteForced
  | cordon (n : String)
  | drain (n : String) (finished : Bool)
  | uncordon (n : String) (force : Bool)

def State.step (s : State) : Step → State
  | .apply members compute => apply s members compute
  | .tick answers =>
    match s.cluster with
    | none => { s with reported := false }
    | some c =>
      if c.row.needsReconcile then
        if c.row.phase = .deleting then reconcileDelete s c answers else reconcileApply s c answers
      else { s with reported := false }
  | .delete =>
    { s with
      cluster := s.cluster.map fun c => { c with row := { c.row with phase := .deleting, observedGeneration := 0 } }
      reported := false }
  | .deleteForced =>
    match s.cluster with
    | none => { s with reported := false }
    | some c => s.dropped c
  | .cordon n =>
    { s with
      status := if s.status n = .ready then update s.status n .cordoned else s.status
      held := update s.held n true
      reported := false }
  | .drain n finished =>
    { s with
      status := update s.status n (if finished then .drained else .draining)
      held := update s.held n true
      reported := false }
  | .uncordon n force =>
    -- a compute member is let go only by force
    if s.status n ≠ .ready ∧ !force ∧ s.cluster.any (fun c => decide (n ∈ c.compute)) then { s with reported := false }
    else { s with status := update s.status n .ready, held := update s.held n false, reported := false }

/-- Whenever a pass reports the cluster ready, the nodes with an enabling fragment are its members; and then, and when
the cluster is gone, a compute node that has left is schedulable exactly if the operator does not hold it. -/
structure LeftAsFound (s : State) : Prop where
  enabled : s.reported = true → ∀ n, s.enabled n = true ↔ ∃ c, s.cluster = some c ∧ n ∈ c.members
  schedulable : s.reported = true ∨ s.cluster = none → ∀ n, s.left n = true → (s.status n = .ready ↔ s.held n = false)

/-- A change of the spec drops no member that has accepted an enabling fragment, and no compute member that is not as
the operator left it; and no compute member is held when a tick deletes the cluster. A deletion is forced only where
no member has accepted an enabling fragment and no compute member is held. -/
def Orderly (s : State) : Step → Bool
  | .apply members compute => s.cluster.all fun c =>
      c.members.all (fun n => members.contains n || !s.enabled n) &&
        c.compute.all fun n => compute.contains n || decide (s.status n = .ready ↔ s.held n = false)
  | .tick _ => s.cluster.all fun c => c.row.phase ≠ .deleting || c.compute.all fun n => !s.held n
  | .deleteForced => s.cluster.all fun c => c.members.all (fun n => !s.enabled n) && c.compute.all fun n => !s.held n
  | _ => true

/-! ### Sending fragments -/

private theorem sendAll_enabled (enable : Bool) (sent : String → Sent) (nodes : List String) (enabled : String → Bool)
    (failures : Bool) (n : String) :
    (sendAll enable sent nodes enabled failures).1 n = enabled n ∨
      n ∈ nodes ∧ (sendAll enable sent nodes enabled failures).1 n = enable := by
  induction nodes generalizing enabled failures with
  | nil => exact .inl rfl
  | cons m rest ih =>
    have hupdate : update enabled m enable n = enabled n ∨ n ∈ m :: rest ∧ update enabled m enable n = enable := by
      by_cases hn : n = m
      · exact .inr ⟨hn ▸ List.mem_cons_self, hn ▸ update_self n enable enabled⟩
      · exact .inl (update_of_ne hn _ _)
    have hset : ∀ failures, (sendAll enable sent rest (update enabled m enable) failures).1 n = enabled n ∨
        n ∈ m :: rest ∧ (sendAll enable sent rest (update enabled m enable) failures).1 n = enable := by
      intro failures
      rcases ih (update enabled m enable) failures with hsame | ⟨hmem, hsent⟩
      · exact hupdate.imp hsame.trans fun h => ⟨h.1, hsame.trans h.2⟩
      · exact .inr ⟨List.mem_cons_of_mem _ hmem, hsent⟩
    have hskip : (sendAll enable sent rest enabled true).1 n = enabled n ∨
        n ∈ m :: rest ∧ (sendAll enable sent rest enabled true).1 n = enable :=
      (ih enabled true).imp_right fun h => ⟨List.mem_cons_of_mem _ h.1, h.2⟩
    unfold sendAll
    cases sent m with
    | accepted => exact hset failures
    | rebuildFails => exact hset true
    | refused => exact hskip
    | error afterwards =>
      cases enable with
      | true =>
        cases afterwards with
        | true => exact hupdate
        | false => exact .inl rfl
      | false =>
        cases afterwards with
        | true => exact hset true
        | false => exact hskip

private theorem sendAll_ok {enable : Bool} {sent : String → Sent} {nodes : List String} {enabled : String → Bool}
    {failures : Bool} (h : (sendAll enable sent nodes enabled failures).2 = some false) :
    failures = false ∧ ∀ n ∈ nodes, (sendAll enable sent nodes enabled failures).1 n = enable := by
  induction nodes generalizing enabled failures with
  | nil => exact ⟨Option.some.inj h, fun n hn => absurd hn List.not_mem_nil⟩
  | cons m rest ih =>
    unfold sendAll at h ⊢
    cases hsent : sent m with
    | accepted =>
      rw [hsent] at h
      obtain ⟨hfailures, hrest⟩ := ih h
      refine ⟨hfailures, fun n hn => ?_⟩
      rcases List.mem_cons.mp hn with rfl | hn
      · rcases sendAll_enabled enable sent rest (update enabled n enable) failures n with hsame | hlater
        · exact hsame.trans (update_self _ _ _)
        · exact hlater.2
      · exact hrest n hn
    | rebuildFails | refused =>
      rw [hsent] at h
      exact absurd (ih h).1 (by decide)
    | error afterwards =>
      rw [hsent] at h
      cases enable with
      | true => cases h
      | false => exact absurd (ih h).1 (by decide)

/-! ### What a step keeps -/

def State.Free (s : State) (n : String) : Prop := s.status n = .ready ↔ s.held n = false

structure Inv (s : State) : Prop where
  enabled : ∀ n, s.enabled n = true → ∃ c, s.cluster = some c ∧ n ∈ c.members
  left : ∀ n, s.left n = true → (∀ c, s.cluster = some c → n ∉ c.compute) ∧ s.Free n
  reported : s.reported = true → ∃ c, s.cluster = some c ∧ ∀ n ∈ c.members, s.enabled n = true

private theorem Inv.leftAsFound {s : State} (h : Inv s) : LeftAsFound s := by
  refine ⟨fun hreported n => ⟨h.enabled n, ?_⟩, fun _ n hn => (h.left n hn).2⟩
  rintro ⟨c, hc, hn⟩
  obtain ⟨c', hc', hall⟩ := h.reported hreported
  obtain rfl : c = c' := Option.some.inj (hc.symm.trans hc')
  exact hall n hn

variable {s : State} {c : Cluster} {n : String}

private theorem Inv.mem_members (h : Inv s) (hc : s.cluster = some c) (hn : s.enabled n = true) : n ∈ c.members := by
  obtain ⟨c', hc', hmem⟩ := h.enabled n hn
  obtain rfl : c = c' := Option.some.inj (hc.symm.trans hc')
  exact hmem

private theorem Inv.quiet (h : Inv s) : Inv { s with reported := false } :=
  ⟨h.enabled, h.left, fun hr => by cases hr⟩

/-- The operator's calls, each of which leaves a node that has left schedulable exactly if it is not held. -/
private theorem Inv.operator (h : Inv s) {status : String → NodeStatus} {held : String → Bool}
    (hfree : ∀ n, s.Free n → (status n = .ready ↔ held n = false)) :
    Inv { s with status := status, held := held, reported := false } :=
  ⟨h.enabled, fun n hn => ⟨(h.left n hn).1, hfree n (h.left n hn).2⟩, fun hr => by cases hr⟩

private theorem Inv.cordon (h : Inv s) (n : String) : Inv (s.step (.cordon n)) := by
  refine h.operator fun m hm => ?_
  by_cases hmn : m = n
  · subst hmn
    rw [update_self]
    split_ifs with hready
    · rw [update_self]
      simp
    · simp [hready]
  · rw [update_of_ne hmn _ _]
    split_ifs
    · rw [update_of_ne hmn _ _]
      exact hm
    · exact hm

private theorem Inv.drain (h : Inv s) (n : String) (finished : Bool) : Inv (s.step (.drain n finished)) := by
  refine h.operator fun m hm => ?_
  by_cases hmn : m = n
  · subst hmn
    rw [update_self, update_self]
    cases finished <;> simp
  · rw [update_of_ne hmn _ _, update_of_ne hmn _ _]
    exact hm

private theorem Inv.uncordon (h : Inv s) (n : String) (force : Bool) : Inv (s.step (.uncordon n force)) := by
  simp only [State.step]
  split_ifs
  · exact h.quiet
  · refine h.operator fun m hm => ?_
    by_cases hmn : m = n
    · subst hmn
      rw [update_self, update_self]
      simp
    · rw [update_of_ne hmn _ _, update_of_ne hmn _ _]
      exact hm

private theorem Inv.apply (h : Inv s) (members compute : List String) (ho : Orderly s (.apply members compute) = true) :
    Inv (s.step (.apply members compute)) := by
  refine ⟨fun n hn => ?_, fun n hn => ?_, fun hr => by cases hr⟩
  · obtain ⟨c, hc, hmem⟩ := h.enabled n hn
    refine ⟨_, rfl, ?_⟩
    simp only [Orderly, hc, Option.all_some, Bool.and_eq_true, List.all_eq_true] at ho
    have hstays := ho.1 n hmem
    have hon : s.enabled n = true := hn
    simp only [hon, Bool.not_true, Bool.or_false, List.contains_iff_mem] at hstays
    cases hcluster : s.cluster <;> simpa [Membership.apply, Cluster.members, hcluster] using hstays
  · simp only [State.step, Membership.apply] at hn ⊢
    split_ifs at hn with hcompute
    refine ⟨fun c hc => ?_, ?_⟩
    · cases hc
      exact hcompute
    · rcases Bool.or_eq_true_iff.mp hn with hleft | hold
      · exact (h.left n hleft).2
      · cases hc : s.cluster with
        | none =>
          rw [hc] at hold
          cases hold
        | some c =>
          rw [hc] at hold
          have hmem : n ∈ c.compute := of_decide_eq_true hold
          simp only [Orderly, hc, Option.all_some, Bool.and_eq_true, List.all_eq_true] at ho
          have hdropped := ho.2 n hmem
          simp only [Bool.or_eq_true, List.contains_iff_mem, hcompute, false_or, decide_eq_true_eq] at hdropped
          exact hdropped

private theorem Inv.reconcileApply (h : Inv s) (hc : s.cluster = some c) (answers : Answers) :
    Inv (reconcileApply s c answers) := by
  have hleft : ∀ n, s.left n = true → n ∉ c.compute := fun n hn => (h.left n hn).1 c hc
  have hmember : ∀ n, s.enabled n = true → n ∈ c.members := fun n => h.mem_members hc
  unfold Membership.reconcileApply
  split_ifs with hpreflight
  · refine ⟨fun n hn => ?_, fun n hn => ⟨fun c' hc' => ?_, ?_⟩, fun hr => ?_⟩
    · refine ⟨_, rfl, ?_⟩
      rcases sendAll_enabled true answers.sent c.members s.enabled false n with hsame | hsent
      · exact hmember n (hsame.symm.trans hn)
      · exact hsent.1
    · cases hc'
      exact hleft n hn
    · -- the pass cordons compute members only
      have hstatus : ¬ (n ∈ c.compute ∧ s.status n = .ready) := fun hboth => hleft n hn hboth.1
      change (if n ∈ c.compute ∧ s.status n = .ready then NodeStatus.cordoned else s.status n) = .ready ↔ _
      rw [if_neg hstatus]
      exact (h.left n hn).2
    · refine ⟨_, rfl, ?_⟩
      have hok : (sendAll true answers.sent c.members s.enabled false).2 = some false := by
        have hready := of_decide_eq_true hr
        split at hready
        · assumption
        · cases hready
        · cases hready
      exact (sendAll_ok hok).2
  · refine ⟨fun n hn => ?_, fun n hn => ⟨fun c' hc' => ?_, (h.left n hn).2⟩, fun hr => by cases hr⟩
    · exact ⟨_, rfl, hmember n hn⟩
    · cases hc'
      exact hleft n hn

private theorem Inv.dropped (h : Inv s) {enabled : String → Bool} (henabled : ∀ n, enabled n = false)
    (hheld : ∀ n ∈ c.compute, s.held n = false) : Inv (State.dropped { s with enabled := enabled } c) := by
  refine ⟨fun n hn => ?_, fun n hn => ⟨fun c' hc' => (by cases hc'), ?_⟩, fun hr => by cases hr⟩
  · exact absurd ((henabled n).symm.trans hn) Bool.false_ne_true
  · change (if n ∈ c.compute then NodeStatus.ready else s.status n) = .ready ↔ s.held n = false
    by_cases hmem : n ∈ c.compute
    · rw [if_pos hmem]
      exact iff_of_true rfl (hheld n hmem)
    · rw [if_neg hmem]
      have hold : s.left n = true := by simpa [State.dropped, hmem] using hn
      exact (h.left n hold).2

private theorem Inv.reconcileDelete (h : Inv s) (hc : s.cluster = some c)
    (hheld : ∀ n ∈ c.compute, s.held n = false) (answers : Answers) : Inv (reconcileDelete s c answers) := by
  have hsent := sendAll_enabled false answers.sent c.members s.enabled false
  have hmember : ∀ n, (sendAll false answers.sent c.members s.enabled false).1 n = true → n ∈ c.members := by
    intro n hn
    rcases hsent n with hsame | ⟨hmem, -⟩
    · exact h.mem_members hc (hsame.symm.trans hn)
    · exact hmem
  unfold Membership.reconcileDelete
  dsimp only
  split_ifs with hok
  · refine h.dropped (fun n => ?_) hheld
    rw [Bool.eq_false_iff]
    intro hn
    have hoff := (sendAll_ok hok).2 n (hmember n hn)
    exact absurd (hoff.symm.trans hn) Bool.false_ne_true
  · refine ⟨fun n hn => ⟨_, rfl, hmember n hn⟩, fun n hn => ⟨fun c' hc' => ?_, (h.left n hn).2⟩, fun hr => by cases hr⟩
    cases hc'
    exact (h.left n hn).1 c hc

private theorem Inv.tick (h : Inv s) (answers : Answers) (ho : Orderly s (.tick answers) = true) :
    Inv (s.step (.tick answers)) := by
  simp only [State.step]
  split
  · exact h.quiet
  · next c hc =>
    split_ifs with hneeds hdeleting
    · have hheld : ∀ n ∈ c.compute, s.held n = false := by simpa [Orderly, hc, hdeleting] using ho
      exact h.reconcileDelete hc hheld answers
    · exact h.reconcileApply hc answers
    · exact h.quiet

private theorem Inv.delete (h : Inv s) : Inv (s.step .delete) := by
  cases hc : s.cluster with
  | none =>
    have hsame : s.step .delete = { s with reported := false } := by simp [State.step, hc]
    rw [hsame]
    exact h.quiet
  | some c =>
    refine ⟨fun n hn => ?_, fun n hn => ⟨fun c' hc' => ?_, (h.left n hn).2⟩, fun hr => by cases hr⟩
    · have hmem := h.mem_members hc hn
      exact ⟨_, congrArg (Option.map _) hc, hmem⟩
    · have hcluster := (congrArg (Option.map _) hc).symm.trans hc'
      cases hcluster
      exact (h.left n hn).1 c hc

private theorem Inv.deleteForced (h : Inv s) (ho : Orderly s .deleteForced = true) : Inv (s.step .deleteForced) := by
  simp only [State.step]
  split
  · exact h.quiet
  · next c hc =>
    simp only [Orderly, hc, Option.all_some, Bool.and_eq_true, List.all_eq_true, Bool.not_eq_true'] at ho
    refine h.dropped (fun n => ?_) ho.2
    rw [Bool.eq_false_iff]
    intro hn
    exact absurd ((ho.1 n (h.mem_members hc hn)).symm.trans hn) Bool.false_ne_true

private theorem Inv.step (h : Inv s) (a : Step) (ho : Orderly s a = true) : Inv (s.step a) := by
  cases a with
  | apply members compute => exact h.apply members compute ho
  | tick answers => exact h.tick answers ho
  | delete => exact h.delete
  | deleteForced => exact h.deleteForced ho
  | cordon n => exact h.cordon n
  | drain n finished => exact h.drain n finished
  | uncordon n force => exact h.uncordon n force

def State.start (status : String → NodeStatus) : State :=
  ⟨none, status, fun _ => false, fun n => decide (status n ≠ .ready), fun _ => false, false⟩

/-- In every orderly run, a node that leaves Slurm is left as it was found. -/
theorem left_as_found (status : String → NodeStatus) (steps : List Step)
    (h : Each State.step (fun s a => Orderly s a = true) (State.start status) steps) :
    Along State.step LeftAsFound (State.start status) steps := by
  have hstart : Inv (State.start status) :=
    ⟨fun n hn => (by cases hn), fun n hn => (by cases hn), fun hr => (by cases hr)⟩
  exact (along_of_each hstart (fun s a hs ho => hs.step a ho) h).mono fun _ => Inv.leftAsFound

/-! ### A member that is dropped -/

def allReady : String → NodeStatus := fun _ => .ready

def willing : Answers := ⟨true, fun _ => .accepted, some true⟩

def applyAndDelete : List Step := [.apply ["head", "node1"] ["node1"], .tick willing, .delete, .tick willing]

theorem deleted_cluster_left_as_found : Along State.step LeftAsFound (State.start allReady) applyAndDelete :=
  left_as_found allReady applyAndDelete (by decide)

def dropNode : List Step :=
  [.apply ["head", "node1"] ["node1"], .tick willing, .apply ["head"] [], .tick willing]

theorem dropped_node_keeps_slurm : ¬ Along State.step LeftAsFound (State.start allReady) dropNode := by
  intro h
  have hmember := (h.last.enabled (by decide) "node1").mp (by decide)
  obtain ⟨c, hc, hmem⟩ := hmember
  obtain rfl : c = _ := Option.some.inj (hc.symm.trans rfl)
  revert hmem
  decide

end Kcore.Slurm.Membership
