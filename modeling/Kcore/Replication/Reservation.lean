import Kcore.Lib.Run
import Kcore.Replication.Apply
import Mathlib.Logic.Function.Basic

/-!
# The reservation of one VM on one node

The pollers evaluate the operations that create a VM, and the retry executor takes up again the entry that failed
because the node was not ready. Each of them reads the node, then the entry, and then writes the entry, with other
database calls in between.

An entry names an operation and carries one count of failures, whichever operation they were for. `follows_along`
gives the interleavings in which the entry follows the newest operation all the same.
-/

namespace Kcore.Replication

open Machine
open Function (update update_self update_of_ne)

/-- What is left of an evaluation or of a retry: each of the three stages is one database call. -/
inductive Task where
  | idle
  | load (opId : String) (retryCount : Int)
  | fail (opId : String) (retryable : Bool) (error : String)
  | write (row : ReplicationReservationRow)
  deriving DecidableEq

structure NodeState where
  approvalStatus : String
  status : String

/-- The ledger entry, with the number of the evaluation that its operation came from. -/
structure Entry where
  seq : Nat
  row : ReplicationReservationRow

/-- The ledger entry, the node, the evaluations by number and the executor with the evaluation that its row came
from. The numbers and the last four fields are for the statements only: the operations that have been taken up, the
last evaluation that has written, whether a verdict has replaced one of a later evaluation, and how often an operation
has been recorded as failing retryably. -/
structure Ledger where
  entry : Option Entry
  node : Option NodeState
  started : Nat
  evaluations : Nat → Task
  executor : Nat × Task
  begun : List String
  last : Option (Nat × String)
  overtaken : Bool
  attempts : String → Nat

def Ledger.start (node : Option NodeState) : Ledger where
  entry := none
  node := node
  started := 0
  evaluations _ := .idle
  executor := (0, .idle)
  begun := []
  last := none
  overtaken := false
  attempts _ := 0

inductive Act where
  | node (node : Option NodeState)
  | begin (opId : String)
  | evaluate (seq : Nat)
  | abort (seq : Nat)
  | pick
  | execute
  | abortExecutor

section Steps

variable (nodeId resourceKey : String)

def reservedRow (opId : String) (retryCount : Int) : ReplicationReservationRow :=
  ⟨"node-capacity/" ++ nodeId, resourceKey, opId, "reserved", "", retryCount⟩

def failureRow (opId : String) (retryable : Bool) (error : String) (currentRetry : Int) : ReplicationReservationRow :=
  let nextRetry := asI32 (currentRetry + 1)
  ⟨"node-capacity/" ++ nodeId, resourceKey, opId, reservationFailureStatus retryable nextRetry, error, nextRetry⟩

def currentRetry (entry : Option Entry) : Int := (entry.map (·.row.retryCount)).getD 0

def Task.read (node : Option NodeState) (entry : Option Entry) : Task → Task
  | .load opId retryCount =>
    match node with
    | none => .fail opId false "node missing"
    | some node =>
      if node.approvalStatus ≠ "approved" then .fail opId false "node not approved"
      else if node.status ≠ "ready" then .fail opId true "node not ready"
      else .write (reservedRow nodeId resourceKey opId retryCount)
  | .fail opId retryable error => .write (failureRow nodeId resourceKey opId retryable error (currentRetry entry))
  | task => task

def retryFailure (row : ReplicationReservationRow) : Bool :=
  row.status = "failed_retryable" || row.status = "retry_exhausted"

def Ledger.upsert (s : Ledger) (seq : Nat) (row : ReplicationReservationRow) : Ledger :=
  { s with
    entry := some ⟨seq, row⟩
    overtaken := s.overtaken || s.entry.any (seq < ·.seq)
    attempts := if retryFailure row then update s.attempts row.opId (s.attempts row.opId + 1) else s.attempts }

def Ledger.evaluate (s : Ledger) (seq : Nat) : Ledger :=
  match s.evaluations seq with
  | .idle => s
  | .write row =>
    { s.upsert seq row with
      evaluations := update s.evaluations seq .idle
      last := if s.last.all (·.1 < seq) then some (seq, row.opId) else s.last }
  | task => { s with evaluations := update s.evaluations seq (task.read nodeId resourceKey s.node s.entry) }

/-- The executor lists the rows to retry and takes the first. Which one that is depends on the ages of the rows, so
this step may come at any time at which the entry is in the list. -/
def Ledger.pick (s : Ledger) : Ledger :=
  match s.executor.2, s.entry with
  | .idle, some e =>
    if e.row.status = "failed_retryable" then { s with executor := (e.seq, .load e.row.opId e.row.retryCount) } else s
  | _, _ => s

/-- The next call of the executor. The reservation key of the entry has the prefix that the executor strips. -/
def Ledger.execute (s : Ledger) : Ledger :=
  match s.executor.2 with
  | .idle => s
  | .write row => { s.upsert s.executor.1 row with executor := (s.executor.1, .idle) }
  | task => { s with executor := (s.executor.1, task.read nodeId resourceKey s.node s.entry) }

def Ledger.step (s : Ledger) : Act → Ledger
  | .node node => { s with node := node }
  | .begin opId =>
    { s with
      started := s.started + 1
      evaluations := update s.evaluations s.started (.load opId 0)
      begun := opId :: s.begun }
  | .evaluate seq => s.evaluate nodeId resourceKey seq
  | .abort seq => { s with evaluations := update s.evaluations seq .idle }
  | .pick => s.pick
  | .execute => s.execute nodeId resourceKey
  | .abortExecutor => { s with executor := (s.executor.1, .idle) }

end Steps

/-- The entry names the operation evaluated last, no verdict has replaced one of a later operation, and an
operation is exhausted after exactly `RESERVATION_MAX_RETRIES` failures. -/
structure Follows (s : Ledger) : Prop where
  names : s.entry.map (fun e => (e.seq, e.row.opId)) = s.last
  overtaken : s.overtaken = false
  bounded : ∀ opId, (s.attempts opId : Int) ≤ reservationMaxRetries
  retried : ∀ e, s.entry = some e → e.row.status = "failed_retryable" →
    (s.attempts e.row.opId : Int) < reservationMaxRetries
  exhausted : ∀ e, s.entry = some e → e.row.status = "retry_exhausted" →
    (s.attempts e.row.opId : Int) = reservationMaxRetries

/-- No operation is evaluated twice; an evaluation writes before any later one does; one that finds the node not
ready reads no count of failures; and the executor writes while the entry is of the evaluation it read the row of. -/
def Orderly (s : Ledger) : Act → Bool
  | .begin opId => !s.begun.contains opId
  | .evaluate seq =>
    match s.evaluations seq with
    | .fail _ true _ => currentRetry s.entry = 0
    | .write _ => s.entry.all (·.seq < seq)
    | _ => true
  | .execute =>
    match s.executor.2 with
    | .write _ => s.entry.map (·.seq) = some s.executor.1
    | _ => true
  | _ => true

/-! ### Rows -/

theorem not_retryFailure_reservedRow (nodeId resourceKey opId : String) (count : Int) :
    retryFailure (reservedRow nodeId resourceKey opId count) = false := by
  simp [retryFailure, reservedRow]

theorem asI32_succ {n : Nat} (h : n < 3) : asI32 ((n : Int) + 1) = ((n + 1 : Nat) : Int) := by
  have hn : n = 0 ∨ n = 1 ∨ n = 2 := by omega
  rcases hn with rfl | rfl | rfl <;> decide

theorem not_retryFailure_nonRetryable (nodeId resourceKey opId error : String) (count : Int) :
    retryFailure (failureRow nodeId resourceKey opId false error count) = false := by
  simp [retryFailure, failureRow, reservationFailureStatus]

structure Counted (row : ReplicationReservationRow) (attempts : Nat) : Prop where
  retried : row.status = "failed_retryable" → row.retryCount = attempts ∧ attempts < 3
  exhausted : row.status = "retry_exhausted" → attempts = 3

theorem counted_of_not {row : ReplicationReservationRow} (h : retryFailure row = false) (n : Nat) : Counted row n := by
  simp only [retryFailure, Bool.or_eq_false_iff, decide_eq_false_iff_not] at h
  exact ⟨fun hr => absurd hr h.1, fun hx => absurd hx h.2⟩

theorem counted_failureRow (nodeId resourceKey opId error : String) {n : Nat} (h : n < 3) :
    Counted (failureRow nodeId resourceKey opId true error n) (n + 1) := by
  have hcount : (failureRow nodeId resourceKey opId true error n).retryCount = ((n + 1 : Nat) : Int) := by
    simp only [failureRow, asI32_succ h]
  have hstatus : (failureRow nodeId resourceKey opId true error n).status =
      reservationFailureStatus true ((n + 1 : Nat) : Int) := by
    simp only [failureRow, asI32_succ h]
  constructor
  · intro hretried
    refine ⟨hcount, ?_⟩
    rw [hstatus] at hretried
    by_contra hlast
    obtain rfl : n = 2 := by omega
    exact absurd hretried (by decide)
  · intro hexhausted
    rw [hstatus] at hexhausted
    by_contra hlast
    have hn : n = 0 ∨ n = 1 := by omega
    rcases hn with rfl | rfl <;> exact absurd hexhausted (by decide)

/-! ### The invariant -/

def Task.opId : Task → String
  | .idle => ""
  | .load opId _ => opId
  | .fail opId _ _ => opId
  | .write row => row.opId

/-- The task, if it is about to write a failure to be retried, counts one more than `n`. -/
def Task.Counts (task : Task) (n : Nat) : Prop :=
  ∀ row, task = .write row → retryFailure row = true → Counted row (n + 1)

theorem opId_read (nodeId resourceKey : String) (node : Option NodeState) (entry : Option Entry) (task : Task) :
    (task.read nodeId resourceKey node entry).opId = task.opId := by
  cases task with
  | load opId count =>
    cases node with
    | none => rfl
    | some node =>
      simp only [Task.read]
      split_ifs <;> rfl
  | _ => rfl

theorem counts_read {nodeId resourceKey : String} {node : Option NodeState} {entry : Option Entry} {task : Task}
    {n : Nat} (htask : task.Counts n) (hn : n < 3)
    (hcount : ∀ opId error, task = .fail opId true error → currentRetry entry = n) :
    (task.read nodeId resourceKey node entry).Counts n := by
  cases task with
  | idle => exact htask
  | write row => exact htask
  | load opId count =>
    intro row hrow hretry
    have hreserved : row = reservedRow nodeId resourceKey opId count := by
      cases node with
      | none => cases hrow
      | some node =>
        simp only [Task.read] at hrow
        split_ifs at hrow
        exact (Task.write.inj hrow).symm
    rw [hreserved, not_retryFailure_reservedRow] at hretry
    cases hretry
  | fail opId retryable error =>
    intro row hrow hretry
    obtain rfl : failureRow nodeId resourceKey opId retryable error (currentRetry entry) = row := Task.write.inj hrow
    cases retryable with
    | false =>
      rw [not_retryFailure_nonRetryable] at hretry
      cases hretry
    | true =>
      rw [hcount opId error rfl]
      exact counted_failureRow nodeId resourceKey opId error hn

/-- An evaluation that has not written is the only one of its operation. -/
structure Ledger.Pending (s : Ledger) (seq : Nat) : Prop where
  counts : (s.evaluations seq).Counts 0
  begun : (s.evaluations seq).opId ∈ s.begun
  fresh : s.attempts (s.evaluations seq).opId = 0
  entry : ∀ e, s.entry = some e → e.row.opId ≠ (s.evaluations seq).opId
  alone : ∀ k, k ≠ seq → s.evaluations k ≠ .idle → (s.evaluations k).opId ≠ (s.evaluations seq).opId

/-- The executor has a row of the entry's evaluation, which is as it was read, or of an earlier one. -/
def Ledger.ExecutorFits (s : Ledger) : Prop :=
  s.executor.2 ≠ .idle → ∃ e, s.entry = some e ∧ s.executor.1 ≤ e.seq ∧ (s.executor.1 = e.seq →
    e.row.status = "failed_retryable" ∧ s.executor.2.opId = e.row.opId ∧ s.executor.2.Counts (s.attempts e.row.opId))

structure Inv (s : Ledger) : Prop where
  names : s.entry.map (fun e => (e.seq, e.row.opId)) = s.last
  overtaken : s.overtaken = false
  unused : ∀ opId, opId ∉ s.begun → s.attempts opId = 0 ∧ ∀ e, s.entry = some e → e.row.opId ≠ opId
  bounded : ∀ opId, s.attempts opId ≤ 3
  counted : ∀ e, s.entry = some e → Counted e.row (s.attempts e.row.opId)
  pending : ∀ seq, s.evaluations seq ≠ .idle → s.Pending seq
  executor : s.ExecutorFits

theorem Inv.follows {s : Ledger} (h : Inv s) : Follows s where
  names := h.names
  overtaken := h.overtaken
  bounded opId := Int.ofNat_le.mpr (h.bounded opId)
  retried e he hs := Int.ofNat_lt.mpr ((h.counted e he).retried hs).2
  exhausted e he hs := by rw [(h.counted e he).exhausted hs]; rfl

section Preserved

variable {s : Ledger} {seq : Nat} {task : Task} {row : ReplicationReservationRow}

theorem counts_load (opId : String) (count : Int) (n : Nat) : (Task.load opId count).Counts n := fun _ h => by cases h

theorem Inv.setExecutor (h : Inv s) (node : Option NodeState) {executor : Nat × Task}
    (hfits : Ledger.ExecutorFits { s with node := node, executor := executor }) :
    Inv { s with node := node, executor := executor } := by
  refine ⟨h.names, h.overtaken, h.unused, h.bounded, h.counted, fun k hk => ?_, hfits⟩
  have hpending := h.pending k hk
  exact ⟨hpending.counts, hpending.begun, hpending.fresh, hpending.entry, hpending.alone⟩

theorem pending_set (h : Inv s) {begun : List String} (hbegun : ∀ opId ∈ s.begun, opId ∈ begun) {k : Nat}
    (hk : k ≠ seq) (hbusy : s.evaluations k ≠ .idle)
    (hother : task = .idle ∨ task.opId ≠ (s.evaluations k).opId) (started : Nat) :
    Ledger.Pending { s with started := started, evaluations := update s.evaluations seq task, begun := begun } k := by
  have hpending := h.pending k hbusy
  have hsame : update s.evaluations seq task k = s.evaluations k := update_of_ne hk _ _
  refine ⟨?_, ?_, ?_, ?_, fun j hj hjbusy => ?_⟩ <;> dsimp only [] at * <;> rw [hsame]
  · exact hpending.counts
  · exact hbegun _ hpending.begun
  · exact hpending.fresh
  · exact hpending.entry
  · by_cases hjs : j = seq
    · rw [hjs, update_self] at hjbusy ⊢
      exact hother.resolve_left hjbusy
    · rw [update_of_ne hjs _ _] at hjbusy ⊢
      exact hpending.alone j hj hjbusy

theorem Inv.setEvaluation (h : Inv s) (hbusy : task ≠ .idle → s.evaluations seq ≠ .idle)
    (hop : task ≠ .idle → task.opId = (s.evaluations seq).opId) (hcounts : task.Counts 0) :
    Inv { s with evaluations := update s.evaluations seq task } := by
  refine ⟨h.names, h.overtaken, h.unused, h.bounded, h.counted, fun k hk => ?_, h.executor⟩
  by_cases hks : k = seq
  · subst hks
    have htask : task ≠ .idle := by rwa [← update_self k task s.evaluations]
    have hpending := h.pending k (hbusy htask)
    have hsame : update s.evaluations k task k = task := update_self _ _ _
    refine ⟨?_, ?_, ?_, ?_, fun j hj hjbusy => ?_⟩ <;> dsimp only [] at * <;> rw [hsame]
    · exact hcounts
    · rw [hop htask]; exact hpending.begun
    · rw [hop htask]; exact hpending.fresh
    · rw [hop htask]; exact hpending.entry
    · rw [update_of_ne hj _ _] at hjbusy ⊢
      rw [hop htask]
      exact hpending.alone j hj hjbusy
  · have hkbusy : s.evaluations k ≠ .idle := by rwa [← update_of_ne hks task s.evaluations]
    refine pending_set h (fun _ hmem => hmem) hks hkbusy ?_ s.started
    by_cases htask : task = .idle
    · exact .inl htask
    · rw [hop htask]
      exact .inr ((h.pending k hkbusy).alone seq (Ne.symm hks) (hbusy htask))

theorem Inv.begin (h : Inv s) {opId : String} (hnew : opId ∉ s.begun) (nodeId resourceKey : String) :
    Inv (s.step nodeId resourceKey (.begin opId)) := by
  obtain ⟨hzero, hentry⟩ := h.unused opId hnew
  refine ⟨h.names, h.overtaken, fun op hop => h.unused op fun hmem => hop (List.mem_cons_of_mem _ hmem), h.bounded,
    h.counted, fun k hk => ?_, h.executor⟩
  by_cases hks : k = s.started
  · subst hks
    have hsame : update s.evaluations s.started (.load opId 0) s.started = .load opId 0 := update_self _ _ _
    refine ⟨?_, ?_, ?_, ?_, fun j hj hjbusy => ?_⟩ <;> dsimp only [Ledger.step] at * <;> rw [hsame]
    · exact counts_load _ _ _
    · exact List.mem_cons_self
    · exact hzero
    · exact hentry
    · rw [update_of_ne hj _ _] at hjbusy ⊢
      intro heq
      have hop : (s.evaluations j).opId = opId := heq
      exact hnew (hop ▸ (h.pending j hjbusy).begun)
  · have hkbusy : s.evaluations k ≠ .idle := by
      have hsame := update_of_ne hks (Task.load opId 0) s.evaluations
      rwa [← hsame]
    refine pending_set h (fun _ hmem => List.mem_cons_of_mem _ hmem) hks hkbusy (.inr fun heq => ?_) (s.started + 1)
    have hop : opId = (s.evaluations k).opId := heq
    exact hnew (hop ▸ (h.pending k hkbusy).begun)

theorem attempts_upsert (h : Inv s) (seq : Nat)
    (hrow : retryFailure row = true → Counted row (s.attempts row.opId + 1)) :
    (Counted row ((s.upsert seq row).attempts row.opId) ∧ (s.upsert seq row).attempts row.opId ≤ 3) ∧
      ∀ opId, opId ≠ row.opId → (s.upsert seq row).attempts opId = s.attempts opId := by
  unfold Ledger.upsert
  cases hretry : retryFailure row with
  | false => exact ⟨⟨counted_of_not hretry _, h.bounded _⟩, fun opId _ => rfl⟩
  | true =>
    have hcounted := hrow hretry
    simp only [if_true]
    rw [update_self]
    refine ⟨⟨hcounted, ?_⟩, fun opId hne => update_of_ne hne _ _⟩
    simp only [retryFailure, Bool.or_eq_true, decide_eq_true_eq] at hretry
    rcases hretry with hretried | hexhausted
    · have hlt := (hcounted.retried hretried).2
      omega
    · have heq := hcounted.exhausted hexhausted
      omega

theorem Inv.upsert (h : Inv s) {last : Option (Nat × String)} {evaluations : Nat → Task} {executor : Nat × Task}
    (hold : ∀ e, s.entry = some e → e.seq ≤ seq)
    (hrow : retryFailure row = true → Counted row (s.attempts row.opId + 1)) (hbegun : row.opId ∈ s.begun)
    (hlast : last = some (seq, row.opId))
    (hevaluations : ∀ k, evaluations k ≠ .idle → evaluations k = s.evaluations k ∧ (evaluations k).opId ≠ row.opId)
    (hexecutor : executor.2 = .idle ∨ executor.1 < seq) :
    Inv { s.upsert seq row with last := last, evaluations := evaluations, executor := executor } := by
  obtain ⟨⟨hcounted, hle⟩, hother⟩ := attempts_upsert h seq hrow
  refine ⟨hlast.symm, ?_, fun opId hnew => ?_, fun opId => ?_, fun e he => ?_, fun k hk => ?_, fun hbusy => ?_⟩
  · have hany : s.entry.any (seq < ·.seq) = false := by
      cases hentry : s.entry with
      | none => rfl
      | some e => simpa using hold e hentry
    change (s.overtaken || s.entry.any (seq < ·.seq)) = false
    rw [h.overtaken, hany]
    rfl
  · have hne : opId ≠ row.opId := fun heq => hnew (heq ▸ hbegun)
    refine ⟨(hother opId hne).trans (h.unused opId hnew).1, fun e he => ?_⟩
    obtain rfl : (⟨seq, row⟩ : Entry) = e := Option.some.inj he
    exact hne.symm
  · by_cases hop : opId = row.opId
    · rw [hop]
      exact hle
    · exact (hother opId hop).le.trans (h.bounded opId)
  · obtain rfl : (⟨seq, row⟩ : Entry) = e := Option.some.inj he
    exact hcounted
  · obtain ⟨hsame, hne⟩ := hevaluations k hk
    have hpending := h.pending k (hsame ▸ hk)
    refine ⟨?_, ?_, ?_, fun e he => ?_, fun j hj hjbusy => ?_⟩ <;> dsimp only [] at * <;> rw [hsame] at *
    · exact hpending.counts
    · exact hpending.begun
    · exact (hother _ hne).trans hpending.fresh
    · obtain rfl : (⟨seq, row⟩ : Entry) = e := Option.some.inj he
      exact hne.symm
    · have hjsame := (hevaluations j hjbusy).1
      rw [hjsame] at hjbusy ⊢
      exact hpending.alone j hj hjbusy
  · have hearlier := hexecutor.resolve_left hbusy
    exact ⟨⟨seq, row⟩, rfl, hearlier.le, fun hsame => absurd hsame hearlier.ne⟩

variable {nodeId resourceKey : String}

theorem Inv.evaluate (h : Inv s) (ho : Orderly s (.evaluate seq) = true) : Inv (s.evaluate nodeId resourceKey seq) := by
  have hread : ∀ task, s.evaluations seq = task → task ≠ .idle →
      (∀ opId error, task = .fail opId true error → currentRetry s.entry = (0 : Nat)) →
      Inv { s with evaluations := update s.evaluations seq (task.read nodeId resourceKey s.node s.entry) } := by
    intro task htask hbusy hcount
    have hpending := h.pending seq (htask ▸ hbusy)
    refine h.setEvaluation (fun _ => htask ▸ hbusy) (fun _ => ?_) (counts_read ?_ (by omega) hcount)
    · rw [opId_read, htask]
    · exact htask ▸ hpending.counts
  unfold Ledger.evaluate
  cases htask : s.evaluations seq with
  | idle => exact h
  | load opId count => exact hread _ htask (by simp) fun _ _ hfail => by cases hfail
  | fail opId retryable error =>
    refine hread _ htask (by simp) fun opId' error' hfail => ?_
    cases hfail
    simpa [Orderly, htask] using ho
  | write row =>
    have hpending := h.pending seq (by simp [htask])
    have hop : (s.evaluations seq).opId = row.opId := congrArg Task.opId htask
    have hnew : ∀ e, s.entry = some e → e.seq < seq := by
      intro e he
      simpa [Orderly, htask, he] using ho
    have hlast : s.last.all (·.1 < seq) = true := by
      rw [← h.names]
      cases hentry : s.entry with
      | none => rfl
      | some e => simpa using hnew e hentry
    refine h.upsert (fun e he => (hnew e he).le) ?_ (hop ▸ hpending.begun) (if_pos hlast) (fun k hk => ?_) ?_
    · rw [← hop, hpending.fresh]
      exact hpending.counts row htask
    · have hks : k ≠ seq := by
        rintro rfl
        exact hk (update_self _ _ _)
      rw [update_of_ne hks _ _] at hk ⊢
      exact ⟨rfl, hop ▸ hpending.alone k hks hk⟩
    · -- the executor has a row of an evaluation that has written
      by_cases hidle : s.executor.2 = .idle
      · exact .inl hidle
      · obtain ⟨e, he, hle, -⟩ := h.executor hidle
        exact .inr (hle.trans_lt (hnew e he))

theorem Inv.pick (h : Inv s) : Inv s.pick := by
  unfold Ledger.pick
  split
  · next e _ hentry =>
    split_ifs with hstatus
    · refine h.setExecutor s.node fun _ => ?_
      exact ⟨e, hentry, le_rfl, fun _ => ⟨hstatus, rfl, counts_load _ _ _⟩⟩
    · exact h
  · exact h

theorem Inv.execute (h : Inv s) (ho : Orderly s .execute = true) : Inv (s.execute nodeId resourceKey) := by
  have hread : ∀ task, s.executor.2 = task → task ≠ .idle →
      Inv { s with executor := (s.executor.1, task.read nodeId resourceKey s.node s.entry) } := by
    intro task htask hbusy
    refine h.setExecutor s.node fun _ => ?_
    obtain ⟨e, he, hle, hfits⟩ := h.executor (htask ▸ hbusy)
    refine ⟨e, he, hle, fun hsame => ?_⟩
    obtain ⟨hstatus, hop, hcounts⟩ := hfits hsame
    rw [htask] at hop hcounts
    obtain ⟨hcount, hlow⟩ := (h.counted e he).retried hstatus
    refine ⟨hstatus, (opId_read _ _ _ _ _).trans hop, counts_read hcounts hlow fun _ _ _ => ?_⟩
    rw [he]
    exact hcount
  unfold Ledger.execute
  cases htask : s.executor.2 with
  | idle => exact h
  | load | fail => exact hread _ htask (by simp)
  | write row =>
    obtain ⟨e, he, -, hfits⟩ := h.executor (by simp [htask])
    have hsame : s.executor.1 = e.seq := by
      have hseq : e.seq = s.executor.1 := by simpa [Orderly, htask, he] using ho
      exact hseq.symm
    obtain ⟨-, hop, hcounts⟩ := hfits hsame
    rw [htask] at hop hcounts
    have hentry : row.opId = e.row.opId := hop
    refine h.upsert (fun e' he' => ?_) ?_ ?_ ?_ (fun k hk => ⟨rfl, ?_⟩) (.inl rfl)
    · obtain rfl : e = e' := Option.some.inj (he.symm.trans he')
      exact hsame.ge
    · rw [hentry]
      exact hcounts row rfl
    · by_contra hnew
      exact (h.unused row.opId hnew).2 e he hentry.symm
    · change s.last = _
      rw [← h.names, he, hsame, hentry]
      rfl
    · rw [hentry]
      exact Ne.symm ((h.pending k hk).entry e he)

theorem Inv.step (h : Inv s) (a : Act) (ho : Orderly s a = true) : Inv (s.step nodeId resourceKey a) := by
  cases a with
  | node node => exact h.setExecutor node h.executor
  | begin opId => exact h.begin (by simpa [Orderly] using ho) nodeId resourceKey
  | evaluate seq => exact h.evaluate ho
  | abort seq =>
    exact h.setEvaluation (fun hne => absurd rfl hne) (fun hne => absurd rfl hne) fun _ hwrite => (by cases hwrite)
  | pick => exact h.pick
  | execute => exact h.execute ho
  | abortExecutor => exact h.setExecutor s.node fun hbusy => absurd rfl hbusy

end Preserved

/-- In every orderly interleaving the entry follows the newest operation. -/
theorem follows_along (nodeId resourceKey : String) (node : Option NodeState) (acts : List Act)
    (h : Each (Ledger.step nodeId resourceKey) (fun s a => Orderly s a = true) (Ledger.start node) acts) :
    Along (Ledger.step nodeId resourceKey) Follows (Ledger.start node) acts := by
  have hstart : Inv (Ledger.start node) :=
    ⟨rfl, rfl, fun _ _ => ⟨rfl, fun e he => (by cases he)⟩, fun _ => Nat.zero_le 3, fun e he => (by cases he),
      fun _ hbusy => absurd rfl hbusy, fun hbusy => absurd rfl hbusy⟩
  exact (along_of_each hstart (fun s a hs ho => hs.step a ho) h).mono fun _ => Inv.follows

def notReady : Option NodeState := some ⟨"approved", "not-ready"⟩

def ready : Option NodeState := some ⟨"approved", "ready"⟩

def evaluated (opId : String) (seq : Nat) : List Act := [.begin opId, .evaluate seq, .evaluate seq, .evaluate seq]

/-- The first operation fails for good, and then the node is ready for the next one. -/
def threeFailures : List Act :=
  evaluated "op-1" 0 ++ [.pick, .execute, .execute, .execute, .pick, .execute, .execute, .execute, .node ready] ++
    evaluated "op-2" 1

theorem three_failures_followed :
    Along (Ledger.step "n1" "vm/v1") Follows (Ledger.start notReady) threeFailures :=
  follows_along "n1" "vm/v1" notReady threeFailures (by decide)

def writtenBack : List Act :=
  evaluated "op-1" 0 ++ [.pick, .node ready, .execute, .node notReady] ++ evaluated "op-2" 1 ++ [.execute]

theorem older_verdict_written_back :
    ¬ Along (Ledger.step "n1" "vm/v1") Follows (Ledger.start notReady) writtenBack := by
  intro h
  exact absurd h.last.names (by decide)

end Kcore.Replication
