import Kcore.Agent.Placement
import Kcore.Ha.Fence

/-!
# Failover of a lost host

The loop of `failover_node` over the guests of a host: a Ceph guest is fenced and moved to a node the scheduler
chooses, a ZFS guest with a replica is moved to its replica node, and every other guest stays. When the host is
back its agent runs a placement pass; `moved_guest_stays_down_iff` says when that pass keeps a moved guest from
starting on the old host.
-/

namespace Kcore

open Keyed

structure FailoverCalls where
  /-- The healthy Ceph node the scheduler chooses for a guest, or the error line of the guest. -/
  cephTarget : VmRow → Except String NodeRow
  /-- `fence_vm_volumes`: the blocklisted addresses, or the message of the status. -/
  fenceVmVolumes : VmRow → Except String (List String)
  /-- `push_config_and_await_apply`: the failure, if there is one. -/
  pushConfig : NodeRow → Option String
  /-- How a status with this message is printed. -/
  showStatus : String → String

def acceptsMigratedVms (node : NodeRow) : Except String Unit :=
  if node.approvalStatus ≠ "approved" then
    .error ("node '" ++ node.id ++ "' is not approved (" ++ node.approvalStatus ++ "); it cannot be given VMs")
  else if node.status = "cordoned" then
    .error ("node '" ++ node.id ++ "' is cordoned; it will not accept VMs until it is uncordoned")
  else if node.status = "draining" || node.status = "drained" then
    .error ("node '" ++ node.id ++ "' is being evacuated (status " ++ node.status ++
      "); moving a VM onto it would undo the drain")
  else .ok ()

def shouldRestart (runtimeState : String) (autoStart : Bool) : Bool :=
  if runtimeState = "running" || runtimeState = "paused" then true
  else if runtimeState = "stopped" then false
  else autoStart

def hasReplica (vm : VmRow) (policy : Option VmHaRow) : Bool :=
  match policy with
  | some row => vm.storageBackend = "zfs" && row.replicaNode ≠ "" && decide (row.lastReplicaAt > 0)
  | none => false

def movable (policies : List VmHaRow) (vm : VmRow) : Bool :=
  vm.storageBackend = "ceph" || hasReplica vm (policies.find? (·.vmId = vm.id))

def reassignVmNode (calls : FailoverCalls) (vm : VmRow) (targetNodeId : String) : Query Unit := do
  let moved ← (setVmNode vm.id targetNodeId).mapErr fun e =>
    calls.showStatus ("reassigning VM '" ++ vm.name ++ "' to node " ++ targetNodeId ++ ": " ++ e)
  if !moved then
    throw (calls.showStatus
      ("VM '" ++ vm.name ++ "' no longer exists; cannot reassign it to node " ++ targetNodeId))

structure FailoverOutcome where
  migrated : Int
  errors : List String

/-- Give the guest to its new node and have that node apply its configuration; the old one applies its own
later. -/
def moveGuest (calls : FailoverCalls) (nodeId : String) (vm : VmRow) (target : NodeRow) : Query FailoverOutcome :=
  tryCatch (do
    reassignVmNode calls vm target.id
    (markNodeConfigPush nodeId).ignore
    return ⟨1, (calls.pushConfig target).toList.map fun e => "VM '" ++ vm.name ++ "' is assigned to " ++
      target.id ++ " but that node did not apply its configuration: " ++ e⟩)
    fun e => return ⟨0, ["VM '" ++ vm.name ++ "': " ++ e]⟩

section Loop

variable (calls : FailoverCalls) (nodeId : String) (liveStorage : Bool) (policies : List VmHaRow)
  (eligible : List NodeRow)

def failoverTarget (vm : VmRow) : Except String (NodeRow × Bool) :=
  let policy := policies.find? (·.vmId = vm.id)
  if hasReplica vm policy then
    let replicaNode := (policy.map (·.replicaNode)).getD ""
    match eligible.find? (·.id = replicaNode) with
    | none => .error ("VM '" ++ vm.name ++ "' replica node " ++ replicaNode ++ " is not available")
    | some node => match acceptsMigratedVms node with
      | .error e => .error ("VM '" ++ vm.name ++ "': " ++ calls.showStatus e)
      | .ok () => .ok (node, false)
  else
    match calls.cephTarget vm with
    | .error e => .error e
    | .ok node => match calls.fenceVmVolumes vm with
      | .error e => .error ("VM '" ++ vm.name ++ "' stays on " ++ nodeId ++ ": its RBD images could not be fenced (" ++
          e ++ ")")
      | .ok _ => .ok (node, true)

def failoverVm (vm : VmRow) : Query FailoverOutcome :=
  if !movable policies vm then
    pure ⟨0, if liveStorage then [] else ["VM '" ++ vm.name ++ "' uses " ++ vm.storageBackend ++
      " storage on failed node " ++ nodeId ++ "; it stays until the node returns"]⟩
  else match failoverTarget calls nodeId policies eligible vm with
    | .error e => pure ⟨0, [e]⟩
    | .ok (target, fenced) => do
      if fenced then (addFencedVm nodeId vm.name).ignore
      let restart := shouldRestart vm.runtimeState vm.autoStart
      if restart ≠ vm.autoStart then (setVmAutoStart vm.id restart).ignore
      moveGuest calls nodeId vm target

def failoverVms : List VmRow → Query FailoverOutcome
  | [] => pure ⟨0, []⟩
  | vm :: rest => do
    let first ← failoverVm calls nodeId liveStorage policies eligible vm
    let others ← failoverVms rest
    return ⟨first.migrated + others.migrated, first.errors ++ others.errors⟩

end Loop

def listVmsForNode (d : DomainTables) (nodeId : String) : List VmRow := d.vms.rows.filter (·.nodeId = nodeId)

/-! ### Which guests move -/

def nodeOf (id : String) (d : DomainTables) : Option String := (d.vms.get id).map (·.nodeId)

section Moves

variable {id : String}

theorem nodeOf_update {d : DomainTables} {p : VmRow → Bool} {f : VmRow → VmRow} (hf : ∀ vm, (f vm).id = vm.id)
    (hnode : ∀ vm, vm.id = id → p vm = true → (f vm).nodeId = vm.nodeId) :
    nodeOf id { d with vms := d.vms.update p f hf } = nodeOf id d := by
  unfold nodeOf
  dsimp only
  rw [Table.get_update, Option.map_map]
  cases hget : d.vms.get id with
  | none => rfl
  | some vm =>
    have hid : vm.id = id := Table.key_of_get hget
    simp only [Option.map_some, Function.comp_apply]
    split
    · rename_i hp; rw [hnode vm hid hp]
    · rfl

theorem keeps_nodeOf_updateVms {p : VmRow → Bool} {f : VmRow → VmRow} (hf : ∀ vm, (f vm).id = vm.id)
    (hnode : ∀ vm, vm.id = id → p vm = true → (f vm).nodeId = vm.nodeId) :
    Tx.Keeps (nodeOf id) (updateVms p f hf) :=
  .bind (.read _) fun _ => .bind (.write fun _ => nodeOf_update hf hnode) fun _ => .pure _

theorem keeps_nodeOf_setVmNode {vmId target : String} (h : vmId ≠ id) :
    Tx.Keeps (nodeOf id) (setVmNode vmId target) := by
  have hne : ∀ vm : VmRow, vm.id = id → ¬ decide (vm.id = vmId) = true := by
    intro vm hid hdec
    exact h ((of_decide_eq_true hdec).symm.trans hid)
  have hupdate : Tx.Keeps (nodeOf id)
      (updateVms (·.id = vmId) (fun vm => { vm with nodeId := target }) fun _ => rfl) :=
    keeps_nodeOf_updateVms _ fun vm hid hdec => absurd hdec (hne vm hid)
  exact .bind (.read _) fun _ => .bind (.read _) fun _ => .ite (.bind (.throw _) fun _ => hupdate) hupdate

theorem keeps_nodeOf_addFencedVm (nodeId vmName : String) : Tx.Keeps (nodeOf id) (addFencedVm nodeId vmName) := by
  refine .bind (.read _) fun _ => .bind (.read _) fun _ => .ite (.bind (.throw _) fun _ => ?_) ?_
  · exact .write fun _ => rfl
  · exact .write fun _ => rfl

theorem keeps_nodeOf_reassignVmNode {calls : FailoverCalls} {vm : VmRow} {target : String} (h : vm.id ≠ id) :
    Tx.Keeps (nodeOf id) (reassignVmNode calls vm target) :=
  .bind (.tryCatch (keeps_nodeOf_setVmNode h) fun _ => .throw _) fun _ => .ite (.throw _) (.pure _)

theorem keeps_nodeOf_markNodeConfigPush (nodeId : String) : Tx.Keeps (nodeOf id) (markNodeConfigPush nodeId) := by
  have hput : Tx.Keeps (nodeOf id) (Tx.write fun d : DomainTables =>
      { d with pendingNodeConfigPush := d.pendingNodeConfigPush.put nodeId }) := .write fun _ => rfl
  refine .bind (.read _) fun _ => .ite (.pure _) (.bind (.read _) fun _ => ?_)
  exact .ite (.bind (.throw _) fun _ => hput) hput

variable (calls : FailoverCalls) (nodeId : String) (liveStorage : Bool) (policies : List VmHaRow)
  (eligible : List NodeRow)

/-- One turn of the loop moves no other guest, and its own guest only if that is movable. -/
theorem keeps_nodeOf_failoverVm (vm : VmRow) (h : vm.id = id → movable policies vm = false) :
    Tx.Keeps (nodeOf id) (failoverVm calls nodeId liveStorage policies eligible vm) := by
  unfold failoverVm
  by_cases hm : movable policies vm = true
  · have hne : vm.id ≠ id := fun hid => by rw [h hid] at hm; exact Bool.noConfusion hm
    refine .ite (.pure _) ?_
    cases failoverTarget calls nodeId policies eligible vm with
    | error e => exact .pure _
    | ok target =>
      have hmove : Tx.Keeps (nodeOf id) (moveGuest calls nodeId vm target.1) :=
        .tryCatch (.bind (keeps_nodeOf_reassignVmNode hne) fun _ =>
          .bind (.ignore (keeps_nodeOf_markNodeConfigPush nodeId)) fun _ => .pure _) fun _ => .pure _
      have hstart : Tx.Keeps (nodeOf id) (setVmAutoStart vm.id (shouldRestart vm.runtimeState vm.autoStart)).ignore :=
        .ignore (keeps_nodeOf_updateVms _ fun _ _ _ => rfl)
      refine .ite (.bind (.ignore (keeps_nodeOf_addFencedVm _ _)) fun _ => ?_) ?_
      · exact .ite (.bind hstart fun _ => hmove) hmove
      · exact .ite (.bind hstart fun _ => hmove) hmove
  · rw [if_pos (by simpa using hm)]
    exact .pure _

theorem movable_of_failoverVms {d : DomainTables} (vms : List VmRow)
    (h : nodeOf id ((failoverVms calls nodeId liveStorage policies eligible vms).exec d).2 ≠ nodeOf id d) :
    ∃ vm ∈ vms, vm.id = id ∧ movable policies vm = true := by
  by_contra hnone
  push Not at hnone
  have hkeeps : ∀ rest, (∀ vm ∈ rest, vm ∈ vms) →
      Tx.Keeps (nodeOf id) (failoverVms calls nodeId liveStorage policies eligible rest) := by
    intro rest hrest
    induction rest with
    | nil => exact .pure _
    | cons vm rest ih =>
      have hvm : vm.id = id → movable policies vm = false := fun hid =>
        Bool.eq_false_iff.mpr (hnone vm (hrest vm (by simp)) hid)
      refine .bind (keeps_nodeOf_failoverVm calls nodeId liveStorage policies eligible vm hvm) fun _ => ?_
      exact .bind (ih fun v hv => hrest v (by simp [hv])) fun _ => .pure _
  exact h (hkeeps vms (fun _ hv => hv) d)

end Moves

/-! ### The old host -/

/-- After the pass the guest does not start on the host: its unit is not unmasked, and it is masked if the
controller still fences it. -/
def StaysDown (name : String) (fenceVms : List String) (actions : List HostAction) : Prop :=
  .unmask name ∉ actions ∧ (name ∈ fenceVms → .mask name ∈ actions)

/-- **A moved guest on its old host.** Only movable guests are moved; and a later confirmed pass on the old host keeps
such a guest down exactly when no line of the placement file gives it a local disk. Trimming leaves the names on a
stored hold alone. -/
theorem moved_guest_stays_down_iff (calls : FailoverCalls) (nodeId : String) (liveStorage : Bool)
    (policies : List VmHaRow) (eligible : List NodeRow) (d : DomainTables) (vms : List VmRow)
    (hvms : vms.Perm (listVmsForNode d nodeId)) (vm : VmRow) (hvm : vm ∈ vms)
    (hmoved : nodeOf vm.id ((failoverVms calls nodeId liveStorage policies eligible vms).exec d).2 ≠ some nodeId)
    (text : String) (assigned fenceVms : List String) (timedOut : Bool) (hassigned : vm.name ∉ assigned) :
    movable policies vm = true ∧
    (StaysDown vm.name fenceVms (placementActions (parsePlacementFile text) assigned fenceVms true timedOut) ↔
      (∀ entry ∈ parsePlacementFile text, entry.name = vm.name → entry.backend = "ceph") ∧
      (vm.name ∈ fenceVms → (∃ entry ∈ parsePlacementFile text, entry.name = vm.name) ∨
        trim vm.name = vm.name ∧ vm.name ≠ "")) := by
  have hrow : ∀ v ∈ vms, v ∈ d.vms.rows ∧ v.nodeId = nodeId := by
    intro v hv
    have hmem := hvms.mem_iff.mp hv
    simpa [listVmsForNode] using hmem
  constructor
  · have hbefore : nodeOf vm.id d = some nodeId := by
      rw [nodeOf, Table.get_of_mem (hrow vm hvm).1, Option.map_some, (hrow vm hvm).2]
    rw [← hbefore] at hmoved
    obtain ⟨v, hv, hid, hm⟩ := movable_of_failoverVms calls nodeId liveStorage policies eligible vms hmoved
    -- Both are rows of the table, so one identifier makes them one row.
    have hv' := Table.get_of_mem (hrow v hv).1
    rw [hid, Table.get_of_mem (hrow vm hvm).1] at hv'
    rw [Option.some.inj hv']
    exact hm
  · unfold StaysDown
    rw [mem_unmask_iff hassigned, mem_mask_iff hassigned]
    push Not
    refine and_congr_right fun hceph => imp_congr_right fun hfenced => ?_
    constructor
    · rintro (⟨entry, he, hname, -⟩ | ⟨htrim, hne, -⟩)
      · exact .inl ⟨entry, he, hname⟩
      · obtain ⟨fenced, -, hf⟩ := List.mem_map.mp htrim
        exact .inr ⟨by rw [← hf, trim_trim], hne⟩
    · rintro (⟨entry, he, hname⟩ | ⟨htrim, hne⟩)
      · exact .inl ⟨entry, he, hname, hceph entry he hname⟩
      · exact .inr ⟨List.mem_map.mpr ⟨vm.name, hfenced, htrim⟩, hne, hceph⟩

/-! ### A host with two guests -/

def host (id status : String) : NodeRow :=
  { placeholderNode id with
    cpuCores := 4, memoryBytes := 8589934592, status, storageBackend := "ceph,zfs", approvalStatus := "approved" }

def guest (id name storageBackend : String) : VmRow := { VmRow.sample id with name, storageBackend }

def lostHost : DomainTables :=
  { DomainTables.empty with
    nodes := (Table.empty.put (host "node-a" "not-ready")).put (host "node-b" "ready")
    vms := (Table.empty.put (guest "vm-1" "web" "ceph")).put (guest "vm-2" "db" "zfs") }

def replicaPolicies : List VmHaRow := [⟨"vm-2", "medium", "off", 120, "node-b", 300, 1700000000, "snap-1", 0⟩]

def nodeBAnswers : FailoverCalls where
  cephTarget _ := .ok (host "node-b" "ready")
  fenceVmVolumes _ := .ok ["10.0.0.1"]
  pushConfig _ := none
  showStatus message := message

/-- The Ceph guest is moved, fenced, and kept down by the line the configuration has for it. -/
theorem moved_ceph_guest_stays_down :
    StaysDown "web" ["web"] (placementActions (parsePlacementFile "db zfs\nweb ceph\n") [] ["web"] true false) :=
  (moved_guest_stays_down_iff nodeBAnswers "node-a" false replicaPolicies [host "node-b" "ready"] lostHost
    (listVmsForNode lostHost "node-a") (.refl _) (guest "vm-1" "web" "ceph") (by decide) (by decide)
    "db zfs\nweb ceph\n" [] ["web"] false (by decide)).2.mpr (by decide)

/-- The ZFS guest is moved to its replica node, and the first confirmed pass of the old host lets it start
there. -/
theorem moved_zfs_guest_restarts :
    nodeOf "vm-2" ((failoverVms nodeBAnswers "node-a" false replicaPolicies [host "node-b" "ready"]
      (listVmsForNode lostHost "node-a")).exec lostHost).2 = some "node-b" ∧
    ¬ StaysDown "db" [] (placementActions (parsePlacementFile "db zfs\nweb ceph\n") [] [] true false) := by
  refine ⟨by decide, fun h => h.1 ?_⟩
  decide

end Kcore
