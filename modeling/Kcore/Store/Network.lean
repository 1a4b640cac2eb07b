import Kcore.Store.Vm

/-!
# Networks, security groups and volumes

The queries on the tables of the network, security-group and volume families.
-/

namespace Kcore

open Keyed

/-! ### Networks -/

def deleteNetwork (nodeId name : String) : Query Bool := do
  let found ← Tx.read fun d => d.networks.has (name, nodeId)
  Tx.write fun d => { d with
    networkPolicy := d.networkPolicy.erase (nodeId, name)
    networks := d.networks.erase (name, nodeId) }
  return found

def insertNetwork (network : NetworkRow) : Query Unit := do
  let there ← Tx.read fun d => d.networks.has (network.name, network.nodeId)
  if there then throw (uniqueFailed "networks.name, networks.node_id")
  let nodeThere ← Tx.read fun d => d.nodes.has network.nodeId
  if !nodeThere then throw foreignKeyFailed
  Tx.write fun d => { d with networks := d.networks.put network }

/-- `upsert_network_policy`: a row that is there keeps its address counter. -/
def upsertNetworkPolicy (policy : NetworkPolicyRow) : Query Unit := Tx.write fun d =>
  let stored := match d.networkPolicy.get (policy.nodeId, policy.name) with
    | some old => { policy with ipv6Next := old.ipv6Next }
    | none => policy
  { d with networkPolicy := d.networkPolicy.put stored }

/-! ### Security groups -/

def upsertSecurityGroup (sg : SecurityGroupRow) : Query Unit :=
  Tx.write fun d => { d with securityGroups := d.securityGroups.put sg }

def deleteSecurityGroup (name : String) : Query Bool := do
  let found ← Tx.read fun d => d.securityGroups.has name
  if !found then return false
  Tx.write fun d => { d with
    securityGroups := d.securityGroups.erase name
    securityGroupRules := d.securityGroupRules.filter (·.securityGroup ≠ name)
    securityGroupVmAttachments := d.securityGroupVmAttachments.filter (·.securityGroup ≠ name)
    securityGroupNetworkAttachments := d.securityGroupNetworkAttachments.filter (·.securityGroup ≠ name) }
  return true

/-- The inserts of `replace_security_group_rules`; a rule id is unique over all groups. -/
def insertRules (t : Table SecurityGroupRuleRow.id) :
    List SecurityGroupRuleRow → Option (Table SecurityGroupRuleRow.id)
  | [] => some t
  | rule :: rest => if t.has rule.id then none else insertRules (t.put rule) rest

/-- `replace_security_group_rules`: one transaction, so a failed insert keeps the old rules. -/
def replaceSecurityGroupRules (securityGroup : String) (rules : List SecurityGroupRuleRow) : Query Unit := do
  let kept ← Tx.read fun d => d.securityGroupRules.filter (·.securityGroup ≠ securityGroup)
  match insertRules kept (rules.map ({ · with securityGroup := securityGroup })) with
  | none => throw (uniqueFailed "security_group_rules.id")
  | some replaced =>
    let groupThere ← Tx.read fun d => d.securityGroups.has securityGroup
    if !rules.isEmpty && !groupThere then throw foreignKeyFailed
    Tx.write fun d => { d with securityGroupRules := replaced }

def requireSecurityGroup (name : String) : Query Unit := do
  let there ← Tx.read fun d => d.securityGroups.has name
  if !there then throw foreignKeyFailed

def attachSecurityGroupToVm (securityGroup vmId : String) : Query Unit := do
  let there ← Tx.read fun d => d.securityGroupVmAttachments.has ⟨securityGroup, vmId⟩
  if there then return
  requireSecurityGroup securityGroup
  requireVm vmId
  Tx.write fun d => { d with securityGroupVmAttachments := d.securityGroupVmAttachments.put ⟨securityGroup, vmId⟩ }

def detachSecurityGroupFromVm (securityGroup vmId : String) : Query Bool := do
  let found ← Tx.read fun d => d.securityGroupVmAttachments.has ⟨securityGroup, vmId⟩
  Tx.write fun d => { d with securityGroupVmAttachments := d.securityGroupVmAttachments.erase ⟨securityGroup, vmId⟩ }
  return found

def attachSecurityGroupToNetwork (securityGroup networkName nodeId : String) : Query Unit := do
  let row : SecurityGroupNetworkAttachmentRow := ⟨securityGroup, networkName, nodeId⟩
  let there ← Tx.read fun d => d.securityGroupNetworkAttachments.has row
  if there then return
  requireSecurityGroup securityGroup
  let nodeThere ← Tx.read fun d => d.nodes.has nodeId
  if !nodeThere then throw foreignKeyFailed
  Tx.write fun d => { d with securityGroupNetworkAttachments := d.securityGroupNetworkAttachments.put row }

def detachSecurityGroupFromNetwork (securityGroup networkName nodeId : String) : Query Bool := do
  let row : SecurityGroupNetworkAttachmentRow := ⟨securityGroup, networkName, nodeId⟩
  let found ← Tx.read fun d => d.securityGroupNetworkAttachments.has row
  Tx.write fun d => { d with securityGroupNetworkAttachments := d.securityGroupNetworkAttachments.erase row }
  return found

/-! ### Volumes -/

def serialFromId (id : String) : String :=
  let hex := (id.toList.filter isHexDigit).take 12
  if hex = [] then "vol" ++ String.ofList (id.toList.take 8) else toAsciiLowercase (String.ofList hex)

/-- `VolumeRow::new_data`; `freshId` is the identifier the source draws at random. -/
def newDataVolume (freshId name : String) (sizeBytes : Int) : VolumeRow where
  id := freshId
  name := name
  vmId := ""
  role := "data"
  slot := 0
  pool := "kcore-vms"
  image := "kcore-vol-" ++ serialFromId freshId
  sizeBytes := sizeBytes
  storageClass := "ceph"
  attachState := "detached"
  serial := serialFromId freshId
  sourceJson := "\x7b\x7d"
  guestFormatJson := ""
  generation := 1
  parentSnapshotId := ""
  guestVisibleBytes := -1
  guestCheckedAt := ""
  encrypted := false
  wrappedDek := ""
  hostNodeId := ""
  fsType := ""
  mountPoint := ""

def getVolumeById (id : String) : Query (Option VolumeRow) := Tx.read fun d => d.volumes.get id

def getVolumeByName (name : String) : Query (Option VolumeRow) :=
  Tx.read fun d => d.volumes.rows.find? (·.name = name)

def upsertVolume (row : VolumeRow) : Query Unit := do
  let nameTaken ← Tx.read fun d => d.volumes.any fun v => v.name = row.name && v.id ≠ row.id
  if nameTaken then throw (uniqueFailed "volumes.name")
  Tx.write fun d => { d with volumes := d.volumes.put row }

def deleteVolumeById (id : String) : Query Bool := do
  let found ← Tx.read fun d => d.volumes.has id
  Tx.write fun d => { d with volumes := d.volumes.erase id }
  return found

def getVolumeSnapshotById (id : String) : Query (Option VolumeSnapshotRow) :=
  Tx.read fun d => d.volumeSnapshots.get id

def getVolumeSnapshotByName (name : String) : Query (Option VolumeSnapshotRow) :=
  Tx.read fun d => d.volumeSnapshots.rows.find? (·.name = name)

def insertVolumeSnapshot (row : VolumeSnapshotRow) : Query Unit := do
  let idTaken ← Tx.read fun d => d.volumeSnapshots.has row.id
  if idTaken then throw (uniqueFailed "volume_snapshots.id")
  let nameTaken ← Tx.read fun d => d.volumeSnapshots.any (·.name = row.name)
  if nameTaken then throw (uniqueFailed "volume_snapshots.name")
  Tx.write fun d => { d with volumeSnapshots := d.volumeSnapshots.put row }

def deleteVolumeSnapshot (id : String) : Query Bool := do
  let found ← Tx.read fun d => d.volumeSnapshots.has id
  Tx.write fun d => { d with volumeSnapshots := d.volumeSnapshots.erase id }
  return found

end Kcore
