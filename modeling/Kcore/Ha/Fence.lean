import Kcore.Store.Vm

/-!
# The fence hold of a lost host

When the controller moves guests off a lost host it blocklists the host's Ceph clients and keeps the names of
the guests it fenced in `node_ha`. The host stays fenced until its agent has reported that placement settled and
that every held guest is masked, unless the guest is still assigned to the host.
-/

namespace Kcore

open Keyed

/-- `NodeFenceHold`, with what `get_node_fence_hold` answers when there is no row as its default. -/
structure NodeFenceHold where
  pending : Bool := false
  vms : List String := []
  lostAt : String := ""
  deriving DecidableEq

def splitFenceVms (text : String) : List String := splitWhitespace text

def nodeFenceHold (d : DomainTables) (nodeId : String) : NodeFenceHold :=
  match d.nodeHa.get nodeId with
  | some row => ⟨row.fencePending, splitFenceVms row.fenceVms, row.lostAt⟩
  | none => {}

def getNodeFenceHold (nodeId : String) : Query NodeFenceHold := Tx.read fun d => nodeFenceHold d nodeId

def nodeLostAt (d : DomainTables) (nodeId : String) : String := (nodeFenceHold d nodeId).lostAt

def setNodeFenceHold (nodeId : String) (pending : Bool) (vms : List String) : Query Unit := do
  let nodeThere ← Tx.read fun d => d.nodes.has nodeId
  if !nodeThere then throw foreignKeyFailed
  Tx.write fun d =>
    let lostAt := if pending then nodeLostAt d nodeId else ""
    { d with nodeHa := d.nodeHa.put ⟨nodeId, pending, " ".intercalate vms, lostAt⟩ }

def NodeFenceHold.withVm (hold : NodeFenceHold) (vmName : String) : List String :=
  if hold.vms.contains vmName then hold.vms else hold.vms ++ [vmName]

def addFencedVm (nodeId vmName : String) : Query Unit := do
  let hold ← getNodeFenceHold nodeId
  setNodeFenceHold nodeId true (hold.withVm vmName)

def markNodeLost (now nodeId : String) : Query Unit := do
  let nodeThere ← Tx.read fun d => d.nodes.has nodeId
  if !nodeThere then throw foreignKeyFailed
  Tx.write fun d =>
    let row := (d.nodeHa.get nodeId).getD ⟨nodeId, false, "", ""⟩
    let row := { row with nodeId := nodeId, lostAt := if row.lostAt = "" then now else row.lostAt }
    { d with nodeHa := d.nodeHa.put row }

def eraseLostAt (nodeId : String) (d : DomainTables) : DomainTables :=
  { d with nodeHa := d.nodeHa.update (·.nodeId = nodeId) (fun row => { row with lostAt := "" }) fun _ => rfl }

/-- `clear_node_lost`: a fence that is still pending keeps `lost_at`. -/
def clearNodeLost (nodeId : String) : Query Bool := do
  let hold ← getNodeFenceHold nodeId
  if !hold.pending then Tx.write (eraseLostAt nodeId)
  return hold.lostAt ≠ ""

section Stored

variable {d : DomainTables} {nodeId : String}

/-- What is on the hold after it is replaced. The stored text is split at white space again. -/
theorem nodeFenceHold_set (hnode : d.nodes.has nodeId = true) (pending : Bool) {vms : List String}
    (hvms : ∀ vm ∈ vms, IsToken vm) :
    nodeFenceHold ((setNodeFenceHold nodeId pending vms).exec d).2 nodeId =
      ⟨pending, vms, if pending then nodeLostAt d nodeId else ""⟩ := by
  unfold setNodeFenceHold
  rw [Tx.exec_read_bind, hnode]
  simp only [Bool.not_true, Bool.false_eq_true, if_false, Tx.exec_write]
  unfold nodeFenceHold
  rw [Table.get_put, if_pos rfl]
  simp [splitFenceVms, splitWhitespace_intercalate vms hvms]

theorem isToken_of_mem_hold {vm : String} (h : vm ∈ (nodeFenceHold d nodeId).vms) : IsToken vm := by
  unfold nodeFenceHold at h
  split at h
  · exact isToken_of_mem_splitWhitespace h
  · exact absurd h (by simp)

theorem mem_withVm {hold : NodeFenceHold} {vmName vm : String} :
    vm ∈ hold.withVm vmName ↔ vm ∈ hold.vms ∨ vm = vmName := by
  unfold NodeFenceHold.withVm
  split
  · rename_i hmem
    refine ⟨.inl, ?_⟩
    rintro (hvm | rfl)
    · exact hvm
    · simpa using hmem
  · rw [List.mem_append, List.mem_singleton]

theorem vms_markNodeLost (d : DomainTables) (now nodeId : String) :
    (nodeFenceHold ((markNodeLost now nodeId).exec d).2 nodeId).vms = (nodeFenceHold d nodeId).vms := by
  unfold markNodeLost
  rw [Tx.exec_read_bind]
  split
  · rfl
  · simp only [Tx.exec_write]
    unfold nodeFenceHold
    rw [Table.get_put, if_pos rfl]
    cases d.nodeHa.get nodeId <;> rfl

theorem vms_eraseLostAt (d : DomainTables) (nodeId : String) :
    (nodeFenceHold (eraseLostAt nodeId d) nodeId).vms = (nodeFenceHold d nodeId).vms := by
  unfold nodeFenceHold eraseLostAt
  rw [Table.get_update]
  cases hget : d.nodeHa.get nodeId with
  | none => rfl
  | some row => simp [show row.nodeId = nodeId from Table.key_of_get hget]

end Stored

/-! ### The release decision -/

inductive FenceRelease where
  | keep
  | hold (vms : List String)
  | unfence
  deriving DecidableEq

def placementSettled : String := "placement-settled"

def placementMask (vm : String) : String := "placement-mask:" ++ vm

def mergePlacementReports (current prior : List String) : List String :=
  prior.foldl (fun out report => if out.contains report then out else out ++ [report]) current

def stillWaiting (assigned actions : List String) (vm : String) : Bool :=
  !assigned.contains vm && !actions.contains (placementMask vm)

def fenceRelease (pending : Bool) (held assigned actions : List String) : FenceRelease :=
  if !pending then .keep
  else
    let remaining := held.filter (stillWaiting assigned actions)
    if remaining.isEmpty && actions.contains placementSettled then .unfence else .hold remaining

example : fenceRelease true ["web", "db"] ["db"] ["placement-settled", "placement-mask:web"] = .unfence := by decide

theorem mem_mergePlacementReports (current prior : List String) (report : String) :
    report ∈ mergePlacementReports current prior ↔ report ∈ current ∨ report ∈ prior := by
  unfold mergePlacementReports
  induction prior generalizing current with
  | nil => simp
  | cons head rest ih =>
    rw [List.foldl_cons, ih, List.mem_cons]
    split
    · rename_i hmem
      have hhead : head ∈ current := by simpa using hmem
      constructor
      · rintro (h | h)
        · exact .inl h
        · exact .inr (.inr h)
      · rintro (h | rfl | h)
        · exact .inl h
        · exact .inl hhead
        · exact .inr h
    · rw [List.mem_append, List.mem_singleton, or_assoc]

theorem fenceRelease_eq_unfence_iff (pending : Bool) (held assigned actions : List String) :
    fenceRelease pending held assigned actions = .unfence ↔
      pending = true ∧ placementSettled ∈ actions ∧ ∀ vm ∈ held, vm ∈ assigned ∨ placementMask vm ∈ actions := by
  unfold fenceRelease
  cases pending with
  | false => simp
  | true =>
    simp only [Bool.not_true, Bool.false_eq_true, if_false, true_and]
    have hempty : (held.filter (stillWaiting assigned actions)).isEmpty = true ↔
        ∀ vm ∈ held, vm ∈ assigned ∨ placementMask vm ∈ actions := by
      rw [List.isEmpty_iff, List.filter_eq_nil_iff]
      refine forall₂_congr fun vm _ => ?_
      simp only [stillWaiting, List.contains_eq_mem, Bool.and_eq_true, Bool.not_eq_true', decide_eq_false_iff_not]
      tauto
    rw [← hempty, and_comm]
    split
    · rename_i h; simpa using h
    · rename_i h; simpa using h

theorem fenceRelease_eq_hold {pending : Bool} {held assigned actions vms : List String}
    (h : fenceRelease pending held assigned actions = .hold vms) :
    pending = true ∧ vms = held.filter (stillWaiting assigned actions) := by
  unfold fenceRelease at h
  cases pending with
  | false => simp at h
  | true =>
    dsimp only at h
    rw [if_neg (by decide)] at h
    split at h
    · exact absurd h (by simp)
    · exact ⟨rfl, (FenceRelease.hold.inj h).symm⟩

end Kcore
