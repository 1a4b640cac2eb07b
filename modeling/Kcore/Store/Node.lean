import Kcore.Lib.Tx
import Kcore.Store.Rows

/-!
# Node rows

The queries on `nodes` and the tables that hang off it. A statement that breaks a foreign key fails and writes
nothing; deleting a node cascades to its attachments, layouts and hold, and is refused while a VM, a network, a
workload or a database instance still names it.
-/

namespace Kcore

open Keyed

abbrev Query := Tx DomainTables

def foreignKeyFailed : String := "FOREIGN KEY constraint failed"

def uniqueFailed (columns : String) : String := "UNIQUE constraint failed: " ++ columns

def operatorHeldNodeStatuses : List String := ["cordoned", "draining", "drained"]

def isOperatorHeldStatus (status : String) : Bool := operatorHeldNodeStatuses.contains status

def nodeStatusAfterRegister (existingStatus : Option String) (approvalStatus : String) : String :=
  match existingStatus with
  | some held => if isOperatorHeldStatus held then held else if approvalStatus = "approved" then "ready" else "pending"
  | none => if approvalStatus = "approved" then "ready" else "pending"

def getNode (nodeId : String) : Query (Option NodeRow) := Tx.read fun d => d.nodes.get nodeId

/-- `upsert_node`: a row that is there keeps its `approval_status`. -/
def upsertNode (node : NodeRow) : Query Unit := Tx.write fun d =>
  let row := match d.nodes.get node.id with
    | some old => { node with approvalStatus := old.approvalStatus }
    | none => node
  { d with nodes := d.nodes.put row }

def setNodeApproval (nodeId status : String) : Query Bool := do
  let found ← Tx.read fun d => d.nodes.has nodeId
  Tx.write fun d =>
    let nodes := d.nodes.update (·.id = nodeId) (fun n => { n with approvalStatus := status }) fun _ => rfl
    { d with nodes := nodes }
  return found

def updateNodeStatus (nodeId status : String) : Query Bool := do
  let found ← Tx.read fun d => d.nodes.has nodeId
  Tx.write fun d =>
    let nodes := d.nodes.update (·.id = nodeId) (fun n => { n with status := status }) fun _ => rfl
    { d with nodes := nodes }
  return found

def insertNodeLabels (nodeId : String) : List String → Query Unit
  | [] => pure ()
  | label :: rest => do
    let row : NodeLabelRow := ⟨nodeId, label⟩
    let nodeThere ← Tx.read fun d => d.nodes.has nodeId
    let labelThere ← Tx.read fun d => d.nodeLabels.has row
    if labelThere then throw (uniqueFailed "node_labels.node_id, node_labels.label")
    if !nodeThere then throw foreignKeyFailed
    Tx.write fun d => { d with nodeLabels := d.nodeLabels.put row }
    insertNodeLabels nodeId rest

def upsertNodeLabels (nodeId : String) (labels : List String) : Query Unit := do
  Tx.write fun d => { d with nodeLabels := d.nodeLabels.filter (·.nodeId ≠ nodeId) }
  insertNodeLabels nodeId labels

def markNodeConfigPush (nodeId : String) : Query Unit := do
  let queued ← Tx.read fun d => d.pendingNodeConfigPush.has nodeId
  if queued then return
  let nodeThere ← Tx.read fun d => d.nodes.has nodeId
  if !nodeThere then throw foreignKeyFailed
  Tx.write fun d => { d with pendingNodeConfigPush := d.pendingNodeConfigPush.put nodeId }

def nodeReferenced (d : DomainTables) (nodeId : String) : Bool :=
  d.vms.any (·.nodeId = nodeId) || d.networks.any (·.nodeId = nodeId) || d.workloads.any (·.nodeId = nodeId) ||
    d.postgresqlInstances.any (·.nodeId = nodeId)

/-- `delete_node`: one transaction, so a refused delete keeps the labels too. -/
def deleteNode (nodeId : String) : Query Bool := do
  let found ← Tx.read fun d => d.nodes.has nodeId
  let referenced ← Tx.read fun d => nodeReferenced d nodeId
  if found && referenced then throw foreignKeyFailed
  Tx.write fun d => { d with
    nodeLabels := d.nodeLabels.filter (·.nodeId ≠ nodeId)
    nodes := d.nodes.erase nodeId
    securityGroupNetworkAttachments := d.securityGroupNetworkAttachments.filter (·.nodeId ≠ nodeId)
    diskLayouts := d.diskLayouts.filter (·.nodeId ≠ nodeId)
    nodeHa := d.nodeHa.erase nodeId
    pendingNodeConfigPush := d.pendingNodeConfigPush.erase nodeId }
  return found

def certStatusRevoked : String := "revoked"

/-- `find_revocable_serials`, without the order, which no caller depends on. -/
def findRevocableSerials (subjectCn nodeId : String) : Query (List String) := Tx.read fun d =>
  (d.issuedCertificates.rows.filter fun c => c.status ≠ certStatusRevoked &&
    ((subjectCn ≠ "" && c.subjectCn = subjectCn) || (nodeId ≠ "" && c.nodeId = nodeId))).map (·.serialHex)

/-- `revoke_certificate_by_serial`, without the time of revocation. -/
def revokeCertificateBySerial (serialHex : String) (reason : Int) : Query Unit := Tx.write fun d =>
  let certificates := d.issuedCertificates.update
    (fun c => c.serialHex = serialHex && c.status ≠ certStatusRevoked)
    (fun c => { c with status := certStatusRevoked, revocationReason := reason }) fun _ => rfl
  { d with issuedCertificates := certificates }

/-- `StorageBackendType::try_from` followed by `storage_backend_from_i32`. -/
def storageBackendFromI32 (raw : Int) : String :=
  if raw = 2 then "lvm" else if raw = 3 then "zfs" else if raw = 4 then "ceph" else "filesystem"

/-- `ensure_replicated_node_exists`: the row a node gets that is named before it is known. -/
def placeholderNode (nodeId : String) : NodeRow where
  id := nodeId
  hostname := nodeId
  address := nodeId ++ ".replicated:9091"
  cpuCores := 0
  memoryBytes := 0
  status := "pending"
  lastHeartbeat := ""
  gatewayInterface := ""
  cpuUsed := 0
  memoryUsed := 0
  storageBackend := "filesystem"
  disableVxlan := false
  approvalStatus := "pending"
  certExpiryDays := 0
  luksMethod := "unknown"
  dcId := ""

def ensureReplicatedNodeExists (nodeId : String) : Query Unit := do
  if (← getNode nodeId).isSome then return
  (upsertNode (placeholderNode nodeId)).mapErr fun e => "create placeholder node " ++ nodeId ++ ": " ++ e

end Kcore
