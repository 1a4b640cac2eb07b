import Kcore.Replication.Handlers

/-!
# The other event families, and the dispatch

The handlers of the network, security-group, volume, account and service events, and the table that gives each
event type its handler. An event type that is not in the table is accepted and changes nothing.
-/

namespace Kcore

open Keyed

/-! ### Networks and security groups -/

def networkFromBody (body : Value) (nodeId name : String) : NetworkRow where
  name := name
  externalIp := (body.str "externalIp").getD ""
  gatewayIp := (body.str "gatewayIp").getD ""
  internalNetmask := (body.str "internalNetmask").getD "255.255.255.0"
  nodeId := nodeId
  allowedTcpPorts := ((body.get "allowedTcpPorts").map jsonAsCompactString).getD "[]"
  allowedUdpPorts := ((body.get "allowedUdpPorts").map jsonAsCompactString).getD "[]"
  vlanId := asI32 ((body.i64 "vlanId").getD 0)
  networkType := (body.str "networkType").getD "nat"
  enableOutboundNat := (body.boolean "enableOutboundNat").getD true
  vni := asI32 ((body.i64 "vni").getD 0)
  nextIp := asI32 ((body.i64 "nextIp").getD 2)

def applyNetworkCreate : Handler := fun c => do
  let nodeId ← requiredStr c.body "nodeId" c.resourceKey
  let name ← requiredStr c.body "name" c.resourceKey
  ensureReplicatedNodeExists nodeId
  (deleteNetwork nodeId name).ignore
  (insertNetwork (networkFromBody c.body nodeId name)).context ("insert network " ++ name ++ " on " ++ nodeId)
  let ipv6Prefix := (c.body.str "ipv6Prefix").getD ""
  let eastWest := (c.body.boolean "eastWestFirewall").getD false
  if (c.body.get "ipv6Prefix").isSome || (c.body.get "eastWestFirewall").isSome then
    if ipv6Prefix ≠ "" || eastWest then
      (upsertNetworkPolicy {
        nodeId := nodeId
        name := name
        eastWest := eastWest
        ipv6Prefix := ipv6Prefix
        ipv6Gateway := (c.body.str "ipv6Gateway").getD ""
        ipv6Next := 2 }).context ("upsert network policy " ++ name ++ " on " ++ nodeId)

def applyNetworkDelete : Handler := fun c => do
  let nodeId ← requiredStr c.body "nodeId" c.resourceKey
  let name ← requiredStr c.body "name" c.resourceKey
  let _ ← (deleteNetwork nodeId name).context ("delete network " ++ name ++ " on " ++ nodeId)

def ruleFromBody (name : String) (rule : Value) (idx : Nat) : SecurityGroupRuleRow where
  id := (rule.str "id").getD ("rule-" ++ toString idx)
  securityGroup := name
  protocol := (rule.str "protocol").getD "tcp"
  hostPort := asI32 ((rule.i64 "hostPort").getD 0)
  targetPort := asI32 ((rule.i64 "targetPort").getD 0)
  sourceCidr := (rule.str "sourceCidr").getD "0.0.0.0/0"
  targetVm := (rule.str "targetVm").getD ""
  enableDnat := (rule.boolean "enableDnat").getD false

def applySecurityGroupCreate : Handler := fun c => do
  let name ← requiredStr c.body "name" c.resourceKey
  (upsertSecurityGroup ⟨name, (c.body.str "description").getD ""⟩).context ("upsert security group " ++ name)
  match c.body.list "rules" with
  | some rules =>
    (replaceSecurityGroupRules name (rules.zipIdx.map fun (rule, idx) => ruleFromBody name rule idx)).context
      ("replace security group rules for " ++ name)
  | none => pure ()

def applySecurityGroupDelete : Handler := fun c => do
  let name ← requiredStr c.body "name" c.resourceKey
  let _ ← (deleteSecurityGroup name).context ("delete security group " ++ name)

def applySecurityGroupAttach : Handler := fun c => do
  let sg ← requiredStr c.body "securityGroup" c.resourceKey
  let targetId ← requiredStr c.body "targetId" c.resourceKey
  let targetKind := (c.body.i64 "targetKind").getD 0
  if targetKind = 1 then
    (attachSecurityGroupToVm sg targetId).context ("attach security group " ++ sg ++ " to vm " ++ targetId)
  else if targetKind = 2 then
    let nodeId ← requiredStr c.body "targetNode" c.resourceKey
    ensureReplicatedNodeExists nodeId
    (attachSecurityGroupToNetwork sg targetId nodeId).context
      ("attach security group " ++ sg ++ " to network " ++ targetId ++ " on " ++ nodeId)
  else
    throw ("unsupported security_group.attach targetKind " ++ toString targetKind ++ " for " ++ c.resourceKey)

def applySecurityGroupDetach : Handler := fun c => do
  let sg ← requiredStr c.body "securityGroup" c.resourceKey
  let targetId ← requiredStr c.body "targetId" c.resourceKey
  let targetKind := (c.body.i64 "targetKind").getD 0
  if targetKind = 1 then
    let _ ← (detachSecurityGroupFromVm sg targetId).context
      ("detach security group " ++ sg ++ " from vm " ++ targetId)
  else if targetKind = 2 then
    let nodeId ← requiredStr c.body "targetNode" c.resourceKey
    let _ ← (detachSecurityGroupFromNetwork sg targetId nodeId).context
      ("detach security group " ++ sg ++ " from network " ++ targetId ++ " on " ++ nodeId)
  else
    throw ("unsupported security_group.detach targetKind " ++ toString targetKind ++ " for " ++ c.resourceKey)

/-! ### Volumes -/

/-- The fields of a volume body over the row that is there. The wrapped key is never replicated. -/
def volumeFromBody (body : Value) (id name : String) (row : VolumeRow) : VolumeRow :=
  { row with
    id := id
    name := name
    role := (body.str "role").getD row.role
    pool := (body.str "pool").getD row.pool
    image := (body.str "image").getD row.image
    sizeBytes := (body.i64 "sizeBytes").getD row.sizeBytes
    vmId := (body.str "vmId").getD row.vmId
    attachState := (body.str "attachState").getD row.attachState
    serial := (body.str "serial").getD row.serial
    slot := ((body.i64 "slot").map asI32).getD row.slot
    storageClass := (body.str "storageClass").getD row.storageClass
    hostNodeId := (body.str "hostNodeId").getD row.hostNodeId
    fsType := (body.str "fsType").getD row.fsType
    mountPoint := (body.str "mountPoint").getD row.mountPoint
    sourceJson := (body.str "sourceJson").getD row.sourceJson
    parentSnapshotId := (body.str "parentSnapshotId").getD row.parentSnapshotId
    encrypted := (body.boolean "encrypted").getD row.encrypted
    generation := (body.i64 "generation").getD row.generation }

/-- The row a volume gets that is not known by id or name. Only the image name keeps the drawn identifier. -/
def freshVolume (freshId id name : String) : VolumeRow :=
  { newDataVolume freshId name 0 with id := id, serial := serialFromId id }

def applyVolumeUpsert : Handler := fun c => do
  let id ← requiredStr c.body "id" c.resourceKey
  let name ← requiredStr c.body "name" c.resourceKey
  let byId ← getVolumeById id
  let byName ← getVolumeByName name
  let row := (byId.or byName).getD (freshVolume c.freshId id name)
  (upsertVolume (volumeFromBody c.body id name row)).context ("upsert volume " ++ name)

def applyVolumeDelete : Handler := fun c => do
  let id := (c.body.str "id").getD ""
  let name := (c.body.str "name").getD ""
  if id ≠ "" then
    let _ ← (deleteVolumeById id).context ("delete volume " ++ id)
  else if name ≠ "" then
    match ← getVolumeByName name with
    | some row => let _ ← (deleteVolumeById row.id).context ("delete volume " ++ row.id)
    | none => pure ()

def applyVolumeSnapshotCreate : Handler := fun c => do
  let id ← requiredStr c.body "id" c.resourceKey
  let name ← requiredStr c.body "name" c.resourceKey
  let volumeId ← requiredStr c.body "volumeId" c.resourceKey
  if (← getVolumeSnapshotById id).isSome then return
  (insertVolumeSnapshot {
    id := id
    name := name
    volumeId := volumeId
    rbdSnap := (c.body.str "rbdSnap").getD name
    isProtected := (c.body.boolean "protected").getD true
    sizeBytes := (c.body.i64 "sizeBytes").getD 0
    consistency := (c.body.str "consistency").getD "crash" }).context ("insert volume snapshot " ++ name)

def applyVolumeSnapshotDelete : Handler := fun c => do
  let id := (c.body.str "id").getD ""
  if id ≠ "" then
    let _ ← (deleteVolumeSnapshot id).context ("delete volume snapshot " ++ id)
  else match c.body.str "name" with
    | some name => match ← getVolumeSnapshotByName name with
      | some snap => let _ ← (deleteVolumeSnapshot snap.id).context ("delete volume snapshot " ++ snap.id)
      | none => pure ()
    | none => pure ()

/-! ### Accounts and controllers -/

def applySshKeyCreate : Handler := fun c => do
  let name ← requiredStr c.body "name" c.resourceKey
  let publicKey ← requiredStr c.body "publicKey" c.resourceKey
  (upsertSshKey name publicKey).context ("upsert ssh key " ++ name)

def applySshKeyDelete : Handler := fun c => do
  let name ← requiredStr c.body "name" c.resourceKey
  let _ ← (deleteSshKey name).context ("delete ssh key " ++ name)

def applyOperatorUpsert : Handler := fun c => do
  let name ← requiredStr c.body "name" c.resourceKey
  (upsertOperatorRow ⟨name, (c.body.str "certSerial").getD ""⟩).context ("upsert operator " ++ name)

def applyOperatorDelete : Handler := fun c => do
  let name ← requiredStr c.body "name" c.resourceKey
  let _ ← (deleteOperator name).context ("delete operator " ++ name)

def applyOperatorRoleGrant : Handler := fun c => do
  let op ← requiredStr c.body "operatorName" c.resourceKey
  let role ← requiredStr c.body "role" c.resourceKey
  (grantOperatorRoleStr op role).context ("grant operator role " ++ op ++ "/" ++ role)

def applyOperatorRoleRevoke : Handler := fun c => do
  let op ← requiredStr c.body "operatorName" c.resourceKey
  let role ← requiredStr c.body "role" c.resourceKey
  let _ ← (revokeOperatorRoleStr op role).context ("revoke operator role " ++ op ++ "/" ++ role)

def applyReplicatedCredentials (body : Value) : Query Unit := do
  let name := (body.str "name").getD ""
  if name = "" then throw "missing name"
  let operatorThere ← Tx.read fun d => d.operators.has name
  if !operatorThere then throw ("operator " ++ name ++ " does not exist yet")
  let applied ← (upsertOperatorCredentials {
    operatorName := name
    passwordHash := (body.str "passwordHash").getD ""
    totpSecret := (body.str "totpSecret").getD ""
    totpEnabled := (body.boolean "totpEnabled").getD false
    recoveryCodes := body.strings "recoveryCodes"
    updatedAt := (body.i64 "updatedAt").getD 0 }).context ("upsert credentials " ++ name)
  if applied && (body.boolean "revokeSessions").getD false then
    (deleteOperatorTokens name "session").context ("revoke sessions " ++ name)
    (deleteOperatorTokens name "pending").context ("revoke pending " ++ name)

def applyReplicatedToken (body : Value) : Query Unit := do
  let row : AuthTokenRow := {
    id := (body.str "id").getD ""
    tokenHash := (body.str "tokenHash").getD ""
    operatorName := (body.str "operator").getD ""
    kind := "api"
    name := (body.str "name").getD ""
    maxRole := (body.str "maxRole").getD ""
    createdAt := (body.i64 "createdAt").getD 0
    expiresAt := (body.i64 "expiresAt").getD 0
    lastUsedAt := 0
    createdFrom := (body.str "createdFrom").getD "" }
  if row.id = "" || row.tokenHash.utf8ByteSize ≠ 64 || row.operatorName = "" then
    throw "token event needs id, a 64-character tokenHash, and operator"
  (insertAuthToken row).context ("insert auth token " ++ row.id)

def applyOperatorCredentialsSet : Handler := fun c => (applyReplicatedCredentials c.body).context c.resourceKey

def applyAuthTokenCreate : Handler := fun c => (applyReplicatedToken c.body).context c.resourceKey

def applyAuthTokenRevoke : Handler := fun c => do
  let id ← requiredStr c.body "id" c.resourceKey
  let _ ← (deleteAuthToken id).context ("delete auth token " ++ id)

def applyControllerRegister : Handler := fun c => do
  let controllerId ← requiredStr c.body "controllerId" c.resourceKey
  let address ← requiredStr c.body "address" c.resourceKey
  (upsertControllerPeer controllerId address ((c.body.str "dcId").getD "DC1")).context
    ("upsert controller peer " ++ controllerId)

/-! ### Services -/

def applyDiskLayoutCreate : Handler := fun c => do
  let name ← requiredStr c.body "name" c.resourceKey
  let nodeId ← requiredStr c.body "nodeId" c.resourceKey
  let layoutNix ← requiredStr c.body "layoutNix" c.resourceKey
  (upsertDiskLayout {
    name := name
    nodeId := nodeId
    generation := (c.body.i64 "generation").getD 1
    layoutNix := layoutNix
    evacuate := (c.body.boolean "evacuate").getD false }).context ("upsert disk layout " ++ name)

def applyDiskLayoutDelete : Handler := fun c => do
  let name ← requiredStr c.body "name" c.resourceKey
  let _ ← (deleteDiskLayout name).context ("delete disk layout " ++ name)

def applyPostgresqlUpsert : Handler := fun c => do
  let name ← requiredStr c.body "name" c.resourceKey
  let nodeId ← requiredStr c.body "nodeId" c.resourceKey
  let database ← requiredStr c.body "database" c.resourceKey
  let package ← requiredStr c.body "package" c.resourceKey
  let port ← Tx.okOr (c.body.i64 "port") ("missing port for " ++ c.resourceKey)
  ensureReplicatedNodeExists nodeId
  (upsertPostgresql ⟨name, database, package, asI32 port, nodeId⟩).context ("upsert postgresql " ++ name)

def applyPostgresqlDelete : Handler := fun c => do
  let name ← requiredStr c.body "name" c.resourceKey
  let _ ← (deletePostgresql name).context ("delete postgresql " ++ name)

def slurmRoles (node : Value) : String :=
  match node.get "roles" with
  | none => ""
  | some roles => match roles.asArray with
    | some items => ",".intercalate (items.filterMap Value.asStr)
    | none => roles.asStr.getD ""

def slurmNodesFromBody (d : DomainTables) (clusterName : String) (body : Value) : List SlurmClusterNodeRow :=
  ((body.list "nodes").getD []).filterMap fun node =>
    ((node.str "nodeId").filter d.nodes.has).map fun nodeId => {
      nodeId := nodeId
      clusterName := clusterName
      roles := slurmRoles node
      appliedGeneration := (node.i64 "appliedGeneration").getD 0
      slurmState := (node.str "slurmState").getD ""
      configHash := (node.str "configHash").getD "" }

def applySlurmClusterUpsert : Handler := fun c => do
  let name ← requiredStr c.body "name" c.resourceKey
  let generation ← Tx.okOr (c.body.i64 "generation") ("missing generation for " ++ c.resourceKey)
  let specJson ← requiredStr c.body "specJson" c.resourceKey
  (upsertSlurmCluster {
    name := name
    specJson := specJson
    generation := generation
    mungeKey := ((c.body.str "mungeKeyHex").map slurmUnhex).getD []
    dbdPassword := (c.body.str "dbdPassword").getD ""
    statusJson := (c.body.str "statusJson").getD "" }).context ("upsert slurm cluster " ++ name)
  let rows ← Tx.read fun d => slurmNodesFromBody d name c.body
  (replaceSlurmClusterNodes name rows).context ("replace slurm nodes " ++ name)

def applySlurmClusterDelete : Handler := fun c => do
  let name ← requiredStr c.body "name" c.resourceKey
  let _ ← (deleteSlurmCluster name).context ("delete slurm cluster " ++ name)

/-! ### The dispatch -/

def domainHandlers : List (String × Handler) :=
  [("node.register", applyNodeRegister), ("node.heartbeat", applyNodeHeartbeat), ("vm.create", applyVmCreate),
   ("vm.ha", applyVmHa), ("vm.state", applyVmState), ("vm.desired_state.set", applyVmDesiredStateSet),
   ("vm.migrate", applyVmMigrate), ("vm.update", applyVmUpdate), ("vm.delete", applyVmDelete),
   ("node.approve", applyNodeApprove), ("node.reject", applyNodeReject), ("node.drain", applyNodeDrain),
   ("node.cordon", applyNodeCordon), ("node.uncordon", applyNodeUncordon), ("node.delete", applyNodeDelete),
   ("network.create", applyNetworkCreate), ("network.delete", applyNetworkDelete),
   ("security_group.create", applySecurityGroupCreate), ("security_group.delete", applySecurityGroupDelete),
   ("security_group.attach", applySecurityGroupAttach), ("security_group.detach", applySecurityGroupDetach),
   ("ssh_key.create", applySshKeyCreate), ("ssh_key.delete", applySshKeyDelete),
   ("operator.upsert", applyOperatorUpsert), ("operator.delete", applyOperatorDelete),
   ("operator_role.grant", applyOperatorRoleGrant), ("operator_role.revoke", applyOperatorRoleRevoke),
   ("operator_credentials.set", applyOperatorCredentialsSet), ("auth_token.create", applyAuthTokenCreate),
   ("auth_token.revoke", applyAuthTokenRevoke), ("controller.register", applyControllerRegister),
   ("disk_layout.create", applyDiskLayoutCreate), ("disk_layout.delete", applyDiskLayoutDelete),
   ("postgresql.create", applyPostgresqlUpsert), ("postgresql.update", applyPostgresqlUpsert),
   ("postgresql.delete", applyPostgresqlDelete), ("slurm_cluster.create", applySlurmClusterUpsert),
   ("slurm_cluster.update", applySlurmClusterUpsert), ("slurm_cluster.delete", applySlurmClusterDelete),
   ("volume.create", applyVolumeUpsert), ("volume.attach", applyVolumeUpsert), ("volume.detach", applyVolumeUpsert),
   ("volume.update", applyVolumeUpsert), ("volume.delete", applyVolumeDelete),
   ("volume_snapshot.create", applyVolumeSnapshotCreate), ("volume_snapshot.delete", applyVolumeSnapshotDelete)]

def handlerFor (eventType : String) : Handler :=
  ((domainHandlers.find? (fun h => h.1 = eventType)).map Prod.snd).getD fun _ => pure ()

end Kcore
