import Kcore.Replication.Handlers
import Kcore.Ha.Fence

/-!
# Registration, heartbeats and the operator's node commands

What the gRPC handlers and the staleness watcher write to `nodes`, as far as a host's row depends on it. A
handler that returns gives the body of the event it logs; the parts of `heartbeat` that touch neither the row nor
the event (the fence decision, the GPU inventory, the configuration push) are left out.
-/

namespace Kcore

open Keyed

/-! ### Registration and heartbeats -/

def normalizeStorageBackend (backend : Int) (required : Bool) : Except String String :=
  if backend = 1 then .ok "filesystem" else if backend = 2 then .ok "lvm" else if backend = 3 then .ok "zfs"
  else if backend = 4 then .ok "ceph"
  else if required then .error "storage_backend is required (filesystem|lvm|zfs|ceph)" else .ok "filesystem"

structure RegisterNodeRequest where
  nodeId : String
  hostname : String
  address : String
  /-- `capacity`: the cores and the bytes of memory. -/
  capacity : Option (Int × Int)
  labels : List String
  storageBackend : Int
  disableVxlan : Bool
  certExpiryDays : Int
  luksMethod : String
  dcId : String

def registerBody (req : RegisterNodeRequest) (status approvalStatus dcId : String) : Value := .object
  [("nodeId", .string req.nodeId), ("hostname", .string req.hostname), ("address", .string req.address),
   ("cpuCores", .number (.int (req.capacity.getD (0, 0)).1)),
   ("memoryBytes", .number (.int (req.capacity.getD (0, 0)).2)), ("status", .string status),
   ("gatewayInterface", .string ""), ("storageBackend", .number (.int req.storageBackend)),
   ("disableVxlan", .bool req.disableVxlan), ("certExpiryDays", .number (.int req.certExpiryDays)),
   ("approvalStatus", .string approvalStatus), ("labels", .array (req.labels.map .string)),
   ("luksMethod", .string req.luksMethod), ("dcId", .string dcId)]

/-- `register_node`: an agent that restarts registers again and keeps its approval and a drain or cordon. -/
def registerNode (requireManualApproval : Bool) (req : RegisterNodeRequest) : Query Value := do
  let storageBackend ← Tx.ofExcept (normalizeStorageBackend req.storageBackend false)
  let existing ← getNode req.nodeId
  let approvalStatus := (existing.map (·.approvalStatus)).getD
    (if requireManualApproval then "pending" else "approved")
  let dcId := if trim req.dcId = "" then (existing.map (·.dcId)).getD "" else req.dcId
  let status := nodeStatusAfterRegister (existing.map (·.status)) approvalStatus
  (upsertNode
    { id := req.nodeId, hostname := req.hostname, address := req.address, cpuCores := (req.capacity.getD (0, 0)).1,
      memoryBytes := (req.capacity.getD (0, 0)).2, status := status, lastHeartbeat := "", gatewayInterface := "",
      cpuUsed := 0, memoryUsed := 0, storageBackend := storageBackend, disableVxlan := req.disableVxlan,
      approvalStatus := approvalStatus, certExpiryDays := req.certExpiryDays, luksMethod := req.luksMethod,
      dcId := dcId }).context "storing node"
  if !req.labels.isEmpty then (upsertNodeLabels req.nodeId req.labels).context "storing labels"
  return registerBody req status approvalStatus dcId

/-- The fields of `HeartbeatRequest` that reach the row or the event. -/
structure HeartbeatRequest where
  nodeId : String
  cpuUsed : Int
  memoryUsed : Int
  certExpiryDays : Int
  luksMethod : String
  hostHealth : String

def NodeRow.afterHeartbeat (now : String) (req : HeartbeatRequest) (n : NodeRow) : NodeRow :=
  { n with
    lastHeartbeat := now
    status := if isOperatorHeldStatus n.status then n.status
      else if n.approvalStatus = "approved" then "ready" else n.status
    cpuUsed := req.cpuUsed
    memoryUsed := req.memoryUsed
    certExpiryDays := req.certExpiryDays
    luksMethod := req.luksMethod }

theorem NodeRow.id_afterHeartbeat (now : String) (req : HeartbeatRequest) (n : NodeRow) :
    (n.afterHeartbeat now req).id = n.id := rfl

def updateHeartbeat (now : String) (req : HeartbeatRequest) : Query Bool := do
  let found ← Tx.read fun d => d.nodes.has req.nodeId
  Tx.write fun d =>
    let nodes := d.nodes.update (·.id = req.nodeId) (·.afterHeartbeat now req) (NodeRow.id_afterHeartbeat now req)
    { d with nodes := nodes }
  return found

def proactiveShouldCordon (hostHealth status : String) : Bool := hostHealth = "degraded" && status = "ready"

def cordonDegraded (nodeId hostHealth : String) : Query Unit := do
  match ← getNode nodeId with
  | some node => if proactiveShouldCordon hostHealth node.status then (updateNodeStatus nodeId "cordoned").ignore
  | none => pure ()

def heartbeatStorageBackend (storageBackend : String) : Int :=
  if storageBackend = "lvm" then 2 else if storageBackend = "zfs" then 3 else 1

/-- The body of the `node.heartbeat` event: the row as it is stored, with the usage and the certificate and disk
state of the request. -/
def heartbeatBody (node : NodeRow) (labels : List String) (req : HeartbeatRequest) : Value := .object
  [("nodeId", .string node.id), ("hostname", .string node.hostname), ("address", .string node.address),
   ("cpuCores", .number (.int node.cpuCores)), ("memoryBytes", .number (.int node.memoryBytes)),
   ("status", .string node.status), ("gatewayInterface", .string node.gatewayInterface),
   ("storageBackend", .number (.int (heartbeatStorageBackend node.storageBackend))),
   ("disableVxlan", .bool node.disableVxlan), ("certExpiryDays", .number (.int req.certExpiryDays)),
   ("approvalStatus", .string node.approvalStatus), ("labels", .array (labels.map .string)),
   ("luksMethod", .string req.luksMethod), ("cpuUsed", .number (.int req.cpuUsed)),
   ("memoryUsed", .number (.int req.memoryUsed)), ("lastHeartbeat", .string node.lastHeartbeat)]

def getNodeLabels (nodeId : String) : Query (List String) := Tx.read fun d =>
  (d.nodeLabels.rows.filter (·.nodeId = nodeId)).map (·.label)

def heartbeatEvent (req : HeartbeatRequest) : Query (Option Value) := do
  match ← getNode req.nodeId with
  | some node => return some (heartbeatBody node (← getNodeLabels req.nodeId) req)
  | none => return none

def heartbeat (now : String) (req : HeartbeatRequest) : Query (Option Value) := do
  let found ← updateHeartbeat now req
  if !found then throw ("node " ++ req.nodeId ++ " not registered")
  (clearNodeLost req.nodeId).ignore
  if req.hostHealth = "degraded" then cordonDegraded req.nodeId req.hostHealth
  heartbeatEvent req

/-! ### The staleness watcher -/

/-- `get_heartbeat_expired`; `overdue` is the comparison of a time with the clock and the deadline. -/
def getHeartbeatExpired (overdue : String → Bool) : Query (List NodeRow) := Tx.read fun d =>
  d.nodes.rows.filter fun n => n.approvalStatus = "approved" && ["ready", "cordoned", "draining"].contains n.status &&
    n.lastHeartbeat ≠ "" && overdue n.lastHeartbeat

def markExpired (now : String) : List NodeRow → Query Unit
  | [] => pure ()
  | node :: rest => do
    if node.status = "ready" then (updateNodeStatus node.id "not-ready").ignore
    (markNodeLost now node.id).ignore
    markExpired now rest

def expireHeartbeats (now : String) (overdue : String → Bool) : Query Unit := do
  markExpired now (← getHeartbeatExpired overdue)

/-! ### Commands of the operator -/

def nodeNotFound (nodeId : String) : String := "node '" ++ nodeId ++ "' not found"

def requireNode (nodeId : String) : Query NodeRow := do Tx.okOr (← getNode nodeId) (nodeNotFound nodeId)

def approveNode (nodeId : String) : Query Unit := do
  let node ← requireNode nodeId
  if node.approvalStatus ≠ "approved" then
    let _ ← (setNodeApproval nodeId "approved").context "approving node"
    let _ ← (updateNodeStatus nodeId "ready").context "updating node status"

def cordonNode (nodeId : String) : Query Unit := do
  let node ← requireNode nodeId
  if !isOperatorHeldStatus node.status then
    let _ ← (updateNodeStatus node.id "cordoned").context "cordoning node"

/-- The writes of `drain_node_vms` to the status: draining at the start, and at the end drained unless a guest
could not be moved. -/
def setDraining (nodeId : String) (finished : Bool) : Query Unit := do
  let node ← requireNode nodeId
  let _ ← (updateNodeStatus node.id (if finished then "drained" else "draining")).context "updating node status"

/-- Why `uncordon_node` refuses, if it does: the host is not approved, or computes for a Slurm cluster. -/
def uncordonRefusal (d : DomainTables) (node : NodeRow) (force : Bool) : Option String :=
  if node.approvalStatus ≠ "approved" then
    some ("node '" ++ node.id ++ "' is not approved (" ++ node.approvalStatus ++ "); approve it before uncordoning")
  else if force then none
  else match d.slurmClusterNodes.get node.id with
    | some member =>
      if (member.roles.splitOn ",").contains "compute" then
        some ("node '" ++ node.id ++ "' is a compute member of SlurmCluster '" ++ member.clusterName ++
          "'; pass force to uncordon it anyway")
      else none
    | none => none

def uncordonNode (nodeId : String) (force : Bool) : Query Unit := do
  let node ← requireNode nodeId
  if isOperatorHeldStatus node.status then
    match ← Tx.read fun d => uncordonRefusal d node force with
    | some refusal => throw refusal
    | none => let _ ← (updateNodeStatus node.id "ready").context "uncordoning node"

def deleteRefusal (d : DomainTables) (nodeId : String) : Option String :=
  let vms := d.vms.rows.countP (·.nodeId = nodeId)
  let networks := d.networks.rows.countP (·.nodeId = nodeId)
  let workloads := d.workloads.rows.countP (·.nodeId = nodeId)
  if vms ≠ 0 then
    some ("node '" ++ nodeId ++ "' still hosts " ++ toString vms ++ " VM(s); drain them before deleting the node")
  else if networks ≠ 0 then
    some ("node '" ++ nodeId ++ "' still has " ++ toString networks ++
      " network(s); delete them before deleting the node")
  else if workloads ≠ 0 then
    some ("node '" ++ nodeId ++ "' still hosts " ++ toString workloads ++
      " workload(s); remove them before deleting the node")
  else none

/-- `delete_node`, the command: the host is cordoned first, and a failed delete leaves it so. -/
def removeNode (nodeId : String) : Query Unit := do
  let node ← requireNode nodeId
  match ← Tx.read fun d => deleteRefusal d node.id with
  | some refusal => throw refusal
  | none =>
    let _ ← (updateNodeStatus node.id "cordoned").context "cordoning node"
    let serials ← findRevocableSerials "" node.id
    serials.forM fun serial => revokeCertificateBySerial serial 5
    let removed ← (deleteNode node.id).mapErr fun e =>
      if textContains e "FOREIGN KEY" then
        "node '" ++ node.id ++ "' still has dependent records; remove them before deleting the node"
      else "deleting node: " ++ e
    if !removed then throw (nodeNotFound node.id)

end Kcore
