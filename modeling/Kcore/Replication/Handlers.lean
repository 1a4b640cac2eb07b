import Kcore.Store.Account

/-!
# Materialising one event

What the materialiser does to the domain tables for each event type, as `apply_head_to_domain` has it: which
fields of the body it reads, their defaults, the order of the writes, and the text of every failure. A handler
that fails keeps what it wrote before. The body of a head is its JSON value.
-/

namespace Kcore

open Keyed

/-- What a handler is given: the key and body of the head, and the identifier that `Uuid::new_v4` would draw. -/
structure HeadContext where
  resourceKey : String
  body : Value
  freshId : String

abbrev Handler := HeadContext → Query Unit

def requiredStr (body : Value) (key resourceKey : String) : Query String :=
  Tx.okOr (body.str key) ("missing " ++ key ++ " for " ++ resourceKey)

theorem exec_requiredStr_bind {α : Type} (body : Value) (key resourceKey : String) (f : String → Query α)
    (d : DomainTables) :
    ((requiredStr body key resourceKey >>= f).exec d).2 = match body.str key with
      | some text => ((f text).exec d).2
      | none => d := by
  unfold requiredStr
  rw [Tx.exec_bind]
  cases body.str key <;> rfl

def vmIdFromBodyOrResource (body : Value) (resourceKey : String) : Query String :=
  match body.str "vmId" with
  | some vmId => pure vmId
  | none =>
    let id := (stripPrefix resourceKey "vm/").or
      ((stripPrefix resourceKey "vm-ha/").or (stripPrefix resourceKey "vm-state/"))
    Tx.okOr (id.filter (· ≠ "")) ("missing vmId for " ++ resourceKey)

/-! ### Nodes -/

/-- The node row of a `node.register` or `node.heartbeat` body: what the body does not carry comes from the row
that is there, then from a default. The four columns in which the two events differ are arguments. -/
def nodeFromBody (body : Value) (existing : Option NodeRow) (nodeId hostnameDefault status : String)
    (disableVxlan : Bool) (approvalStatus : String) : NodeRow where
  id := nodeId
  hostname := ((body.str "hostname").or (existing.map (·.hostname))).getD hostnameDefault
  address := ((body.str "address").or (existing.map (·.address))).getD ""
  cpuCores := (((body.i64 "cpuCores").map asI32).or (existing.map (·.cpuCores))).getD 0
  memoryBytes := ((body.i64 "memoryBytes").or (existing.map (·.memoryBytes))).getD 0
  status := status
  lastHeartbeat := ((body.str "lastHeartbeat").or (existing.map (·.lastHeartbeat))).getD ""
  gatewayInterface := ((body.str "gatewayInterface").or (existing.map (·.gatewayInterface))).getD "eth0"
  cpuUsed := (((body.i64 "cpuUsed").map asI32).or (existing.map (·.cpuUsed))).getD 0
  memoryUsed := ((body.i64 "memoryUsed").or (existing.map (·.memoryUsed))).getD 0
  storageBackend := storageBackendFromI32 (asI32 ((body.i64 "storageBackend").getD 0))
  disableVxlan := disableVxlan
  approvalStatus := approvalStatus
  certExpiryDays := (((body.i64 "certExpiryDays").map asI32).or (existing.map (·.certExpiryDays))).getD (-1)
  luksMethod := ((body.str "luksMethod").or (existing.map (·.luksMethod))).getD ""
  dcId := ((body.str "dcId").or (existing.map (·.dcId))).getD ""

/-- The labels of a node event; an empty list leaves the stored ones alone. -/
def applyNodeLabels (nodeId : String) (body : Value) : Query Unit :=
  let labels := body.strings "labels"
  if labels.isEmpty then pure ()
  else (upsertNodeLabels nodeId labels).context ("upsert node labels " ++ nodeId)

/-- The status a `node.register` event gives: a drain or cordon stays, whatever the event says. -/
def registerStatus (body : Value) (existing : Option NodeRow) (approvalStatus : String) : String :=
  match existing.map (·.status) with
  | some held =>
    if isOperatorHeldStatus held then nodeStatusAfterRegister (some held) approvalStatus
    else (body.str "status").getD (nodeStatusAfterRegister none approvalStatus)
  | none => (body.str "status").getD (nodeStatusAfterRegister none approvalStatus)

def applyNodeRegister : Handler := fun c => do
  let nodeId ← requiredStr c.body "nodeId" c.resourceKey
  let existing ← getNode nodeId
  let approvalStatus := (c.body.str "approvalStatus").getD "pending"
  let node := nodeFromBody c.body existing nodeId "unknown" (registerStatus c.body existing approvalStatus)
    ((c.body.boolean "disableVxlan").getD false) approvalStatus
  (upsertNode node).context ("upsert node " ++ nodeId)
  applyNodeLabels nodeId c.body

def applyNodeHeartbeat : Handler := fun c => do
  let nodeId ← requiredStr c.body "nodeId" c.resourceKey
  let existing ← getNode nodeId
  let node := nodeFromBody c.body existing nodeId nodeId
    (((c.body.str "status").or (existing.map (·.status))).getD "pending")
    (((c.body.boolean "disableVxlan").or (existing.map (·.disableVxlan))).getD false)
    (((c.body.str "approvalStatus").or (existing.map (·.approvalStatus))).getD "pending")
  (upsertNode node).context ("upsert heartbeat node " ++ nodeId)
  applyNodeLabels nodeId c.body

def applyNodeStatus (approval : Option String) (status : String) : Handler := fun c => do
  let nodeId ← requiredStr c.body "nodeId" c.resourceKey
  match approval with
  | some a => let _ ← (setNodeApproval nodeId a).context ("set node approval " ++ a ++ " " ++ nodeId)
  | none => pure ()
  let _ ← (updateNodeStatus nodeId status).context ("set node status " ++ status ++ " " ++ nodeId)

def applyNodeApprove : Handler := applyNodeStatus (some "approved") "ready"

def applyNodeReject : Handler := applyNodeStatus (some "rejected") "rejected"

def applyNodeDrain : Handler := applyNodeStatus none "drained"

def applyNodeCordon : Handler := applyNodeStatus none "cordoned"

def applyNodeUncordon : Handler := applyNodeStatus none "ready"

def applyNodeDelete : Handler := fun c => do
  let nodeId ← requiredStr c.body "nodeId" c.resourceKey
  let serials ← findRevocableSerials "" nodeId
  serials.forM fun serial => revokeCertificateBySerial serial 5
  let _ ← (deleteNode nodeId).context ("delete node " ++ nodeId)

/-! ### VMs -/

def pciDevicesFromReplicationBody (body : Value) : Except String String :=
  match body.get "pciDevices" with
  | none => .ok ""
  | some value =>
    let addrs : Option (List String) := match value.asArray, value.asStr with
      | some items, _ => some (items.filterMap Value.asStr)
      | none, some s => some (splitPciDevices s)
      | none, none => none
    match addrs with
    | none => .error "pciDevices must be a list of PCI addresses"
    | some addrs => (joinPciDevices addrs).mapError ("pciDevices: " ++ ·)

/-- The extra interfaces of a `vm.create` body: those without a network are dropped, and a position that is
missing or out of range is the place in the list. -/
def extraNicsFromBody (vmId : String) (body : Value) : List VmNicRow :=
  ((body.list "extraNics").getD []).zipIdx.filterMap fun (nic, index) =>
    (nic.str "network").map fun network => {
      vmId := vmId
      position := ((nic.i64 "position").bind tryI32).getD (index + 1)
      network := network
      macAddress := (nic.str "macAddress").getD ""
      model := (nic.str "model").getD "virtio"
      ipAddress := (nic.str "ipAddress").getD "" }

def ipv6FromBody (vmId : String) (body : Value) : List VmIpv6Row :=
  ((body.list "ipv6Addresses").getD []).filterMap fun row =>
    ((row.str "address").filter (· ≠ "")).map fun address =>
      { vmId := vmId, position := ((row.i64 "position").bind tryI32).getD 0, address := address }

def labelsText (v : Value) : String := v.asStr.getD v.compact

def vmFromBody (body : Value) (vmId nodeId pciDevices : String) : VmRow where
  id := vmId
  name := (body.str "name").getD vmId
  cpu := asI32 ((body.i64 "cpu").getD 2)
  memoryBytes := (body.i64 "memoryBytes").getD (2 * 1024 * 1024 * 1024)
  imagePath := (body.str "imagePath").getD ""
  imageUrl := (body.str "imageUrl").getD ""
  imageSha256 := (body.str "imageSha256").getD ""
  imageFormat := (body.str "imageFormat").getD "qcow2"
  imageSize := (body.i64 "imageSize").getD 0
  network := (body.str "network").getD "default"
  autoStart := (body.boolean "autoStart").getD true
  nodeId := nodeId
  runtimeState := (body.str "runtimeState").getD "unknown"
  cloudInitUserData := (body.str "cloudInitUserData").getD ""
  storageBackend := (body.str "storageBackend").getD "filesystem"
  storageSizeBytes := (body.i64 "storageSizeBytes").getD 0
  vmIp := (body.str "vmIp").getD ""
  pciDevices := pciDevices
  labels := ((body.get "labels").map labelsText).getD ""

/-- The policy row of a `vm.ha` or `vm.create` body. An empty text counts as missing for the priority and the
monitoring mode, but not for the replica node and snapshot. -/
def vmHaFromBody (body : Value) (vmId : String) (existing : Option VmHaRow) : VmHaRow :=
  let row := existing.getD (defaultVmHa vmId)
  { vmId := vmId
    restartPriority := ((body.str "restartPriority").filter (· ≠ "")).getD row.restartPriority
    vmMonitoring := ((body.str "vmMonitoring").filter (· ≠ "")).getD row.vmMonitoring
    vmMonitoringSecs := (body.i64 "vmMonitoringSecs").getD row.vmMonitoringSecs
    replicaNode := (body.str "replicaNode").getD row.replicaNode
    replicaIntervalSecs := (body.i64 "replicaIntervalSecs").getD row.replicaIntervalSecs
    lastReplicaAt := (body.i64 "lastReplicaAt").getD row.lastReplicaAt
    lastReplicaSnapshot := (body.str "lastReplicaSnapshot").getD row.lastReplicaSnapshot
    lastGuestHeartbeat := row.lastGuestHeartbeat }

def applyVmHaFromBody (vmId : String) (body : Value) : Query Unit := do
  let hasPolicy := (body.get "restartPriority").isSome || (body.get "vmMonitoring").isSome ||
    (body.get "replicaNode").isSome || (body.get "lastReplicaAt").isSome
  if !hasPolicy then return
  let existing ← getVmHa vmId
  let row := vmHaFromBody body vmId existing
  (upsertVmHa row).context ("upsert vm_ha " ++ vmId)
  -- `upsertVmHa` keeps the stored progress; only a body that carries progress moves it.
  if (body.get "lastReplicaAt").isSome || (body.get "lastReplicaSnapshot").isSome then
    (setVmReplicaProgress vmId row.lastReplicaAt row.lastReplicaSnapshot).context ("set replica progress " ++ vmId)

def notMaterializedYet : String := "not materialized yet"

def applyVmStateFromBody (vmId : String) (body : Value) : Query Unit :=
  match body.str "runtimeState" with
  | none => pure ()
  | some state => do
    if state = "" then return
    let updated ← (setVmRuntimeById vmId state).context ("set runtime " ++ vmId)
    if !updated then throw ("vm " ++ vmId ++ " " ++ notMaterializedYet)
    match body.i64 "guestHeartbeat" with
    | some heartbeat =>
      if heartbeat > 0 then (setGuestHeartbeatById vmId heartbeat).context ("set guest heartbeat " ++ vmId)
    | none => pure ()

/-- The tables keyed on the VM that a `vm.create` body fills, after the VM row is stored. -/
def applyVmCreateParts (vmId : String) (body : Value) : Query Unit := do
  match body.str "gpuName" with
  | some gpuName =>
    if gpuName = "" then (clearVmGpu vmId).ignore
    else (setVmGpu vmId gpuName).context ("storing GPU assignment for vm " ++ vmId)
  | none => pure ()
  let sshKeys := body.strings "sshKeyNames"
  if !sshKeys.isEmpty then (associateVmSshKeys vmId sshKeys).context ("associating SSH keys for vm " ++ vmId)
  if (body.get "extraNics").isSome then
    (replaceVmNics vmId (extraNicsFromBody vmId body)).context ("replacing extra NICs for vm " ++ vmId)
  if (body.get "ipv6Addresses").isSome then
    (replaceVmIpv6 vmId (ipv6FromBody vmId body)).context ("replacing IPv6 addresses for vm " ++ vmId)
  match body.str "antiAffinity" with
  | some group => (setVmAntiAffinity vmId group).context ("setting anti-affinity for vm " ++ vmId)
  | none => pure ()
  applyVmHaFromBody vmId body

def applyVmCreate : Handler := fun c => do
  let vmId ← requiredStr c.body "vmId" c.resourceKey
  let nodeId := (c.body.str "nodeId").getD ""
  if nodeId ≠ "" then ensureReplicatedNodeExists nodeId
  let pciDevices ← Tx.ofExcept (pciDevicesFromReplicationBody c.body)
  (upsertVm (vmFromBody c.body vmId nodeId pciDevices)).mapErr fun e =>
    "upsert vm " ++ vmId ++ " from replication head: " ++ e
  applyVmCreateParts vmId c.body

def applyVmHa : Handler := fun c => do
  applyVmHaFromBody (← vmIdFromBodyOrResource c.body c.resourceKey) c.body

def applyVmState : Handler := fun c => do
  applyVmStateFromBody (← vmIdFromBodyOrResource c.body c.resourceKey) c.body

def applyVmDesiredStateSet : Handler := fun c => do
  let vmId ← vmIdFromBodyOrResource c.body c.resourceKey
  let autoStart ← Tx.okOr (c.body.boolean "autoStart") ("missing autoStart for " ++ c.resourceKey)
  let _ ← (setVmAutoStart vmId autoStart).context ("set vm auto_start " ++ vmId)

def applyVmMigrate : Handler := fun c => do
  let vmId ← vmIdFromBodyOrResource c.body c.resourceKey
  let target ← requiredStr c.body "targetNode" c.resourceKey
  ensureReplicatedNodeExists target
  let moved ← (setVmNode vmId target).context ("reassign vm " ++ vmId ++ " to " ++ target)
  if !moved then throw ("vm " ++ vmId ++ " not found for " ++ c.resourceKey)
  match c.body.str "sourceNode" with
  | some source => if source ≠ "" then (markNodeConfigPush source).ignore
  | none => pure ()

def applyVmUpdate : Handler := fun c => do
  let vmId ← vmIdFromBodyOrResource c.body c.resourceKey
  let cpu := (c.body.i64 "cpu").bind tryI32
  let _ ← (updateVmSpec vmId cpu (c.body.i64 "memoryBytes")).context ("update vm spec " ++ vmId)
  match (c.body.get "labels").filter (!·.isNull) with
  | some labels => let _ ← (setVmLabels vmId (labelsText labels)).context ("update vm labels " ++ vmId)
  | none => pure ()

def applyVmDelete : Handler := fun c => do
  let vmId ← vmIdFromBodyOrResource c.body c.resourceKey
  let _ ← (deleteVmByIdOrName vmId).context ("delete vm " ++ vmId)

end Kcore
