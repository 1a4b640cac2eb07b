import Kcore.Lib.Table
import Kcore.Json

/-!
# Rows of the domain tables

The rows that materialising a replicated head reads or writes, and the tables they are kept in. Columns that
only record when a row was written (`created_at`, `updated_at` and the like) are left out, except where a query
compares them.
-/

namespace Kcore

open Keyed

/-! ### Nodes -/

structure NodeRow where
  id : String
  hostname : String
  address : String
  cpuCores : Int
  memoryBytes : Int
  status : String
  lastHeartbeat : String
  gatewayInterface : String
  cpuUsed : Int
  memoryUsed : Int
  storageBackend : String
  disableVxlan : Bool
  approvalStatus : String
  certExpiryDays : Int
  luksMethod : String
  dcId : String

structure NodeLabelRow where
  nodeId : String
  label : String
  deriving DecidableEq

/-- The part of `workloads` that the foreign key to `nodes` needs. -/
structure WorkloadRow where
  id : String
  nodeId : String

structure IssuedCertRow where
  serialHex : String
  subjectCn : String
  nodeId : String
  status : String
  revocationReason : Int

/-- `NodeFenceHold`, the fence columns of `node_ha`. -/
structure NodeHaRow where
  nodeId : String
  fencePending : Bool
  fenceVms : String
  lostAt : String

/-! ### Virtual machines -/

structure VmRow where
  id : String
  name : String
  cpu : Int
  memoryBytes : Int
  imagePath : String
  imageUrl : String
  imageSha256 : String
  imageFormat : String
  imageSize : Int
  network : String
  autoStart : Bool
  nodeId : String
  runtimeState : String
  cloudInitUserData : String
  storageBackend : String
  storageSizeBytes : Int
  vmIp : String
  pciDevices : String
  labels : String
  deriving DecidableEq

/-- A VM of the host `node-a` with nothing special about it. -/
def VmRow.sample (id : String) : VmRow where
  id := id
  name := id
  cpu := 1
  memoryBytes := 1073741824
  imagePath := "/var/lib/kcore/debian.raw"
  imageUrl := ""
  imageSha256 := ""
  imageFormat := "raw"
  imageSize := 8192
  network := "default"
  autoStart := true
  nodeId := "node-a"
  runtimeState := "running"
  cloudInitUserData := ""
  storageBackend := "filesystem"
  storageSizeBytes := 0
  vmIp := ""
  pciDevices := ""
  labels := ""

structure VmSshKeyRow where
  vmId : String
  keyName : String
  deriving DecidableEq

structure VmNicRow where
  vmId : String
  position : Int
  network : String
  macAddress : String
  model : String
  ipAddress : String

structure VmIpv6Row where
  vmId : String
  position : Int
  address : String

structure VmPlacementRow where
  vmId : String
  antiAffinity : String

structure VmGpuRow where
  vmId : String
  gpuName : String

structure VmHaRow where
  vmId : String
  restartPriority : String
  vmMonitoring : String
  vmMonitoringSecs : Int
  replicaNode : String
  replicaIntervalSecs : Int
  lastReplicaAt : Int
  lastReplicaSnapshot : String
  lastGuestHeartbeat : Int

/-! ### Networks and security groups -/

structure NetworkRow where
  name : String
  externalIp : String
  gatewayIp : String
  internalNetmask : String
  nodeId : String
  allowedTcpPorts : String
  allowedUdpPorts : String
  vlanId : Int
  networkType : String
  enableOutboundNat : Bool
  vni : Int
  nextIp : Int
  deriving DecidableEq

structure NetworkPolicyRow where
  nodeId : String
  name : String
  eastWest : Bool
  ipv6Prefix : String
  ipv6Gateway : String
  ipv6Next : Int

structure ReleasedAddressRow where
  scope : String
  address : String
  deriving DecidableEq

structure SecurityGroupRow where
  name : String
  description : String

structure SecurityGroupRuleRow where
  id : String
  securityGroup : String
  protocol : String
  hostPort : Int
  targetPort : Int
  sourceCidr : String
  targetVm : String
  enableDnat : Bool

structure SecurityGroupVmAttachmentRow where
  securityGroup : String
  vmId : String
  deriving DecidableEq

structure SecurityGroupNetworkAttachmentRow where
  securityGroup : String
  networkName : String
  nodeId : String
  deriving DecidableEq

/-! ### Volumes -/

structure VolumeRow where
  id : String
  name : String
  vmId : String
  role : String
  slot : Int
  pool : String
  image : String
  sizeBytes : Int
  storageClass : String
  attachState : String
  serial : String
  sourceJson : String
  guestFormatJson : String
  generation : Int
  parentSnapshotId : String
  guestVisibleBytes : Int
  guestCheckedAt : String
  encrypted : Bool
  wrappedDek : String
  hostNodeId : String
  fsType : String
  mountPoint : String

structure VolumeSnapshotRow where
  id : String
  name : String
  volumeId : String
  rbdSnap : String
  isProtected : Bool
  sizeBytes : Int
  consistency : String

/-! ### Accounts, peers and services -/

structure SshKeyRow where
  name : String
  publicKey : String
  deriving DecidableEq

structure OperatorRow where
  name : String
  certSerial : String

structure OperatorRoleRow where
  operatorName : String
  role : String
  deriving DecidableEq

structure OperatorCredentials where
  operatorName : String
  passwordHash : String
  totpSecret : String
  totpEnabled : Bool
  recoveryCodes : List String
  updatedAt : Int

structure AuthTokenRow where
  id : String
  tokenHash : String
  operatorName : String
  kind : String
  name : String
  maxRole : String
  createdAt : Int
  expiresAt : Int
  lastUsedAt : Int
  createdFrom : String

structure ControllerPeerRow where
  controllerId : String
  address : String
  dcId : String

structure DiskLayoutRow where
  name : String
  nodeId : String
  generation : Int
  layoutNix : String
  evacuate : Bool

structure PostgresqlRow where
  name : String
  databaseName : String
  package : String
  port : Int
  nodeId : String

structure SlurmClusterRow where
  name : String
  specJson : String
  generation : Int
  mungeKey : List UInt8
  dbdPassword : String
  statusJson : String

structure SlurmClusterNodeRow where
  nodeId : String
  clusterName : String
  roles : String
  appliedGeneration : Int
  slurmState : String
  configHash : String

/-! ### The tables -/

/-- The tables that hold what replication is about, as opposed to those that carry it. -/
structure DomainTables where
  nodes : Table NodeRow.id
  nodeLabels : Table (id : NodeLabelRow → NodeLabelRow)
  workloads : Table WorkloadRow.id
  issuedCertificates : Table IssuedCertRow.serialHex
  pendingNodeConfigPush : Table (id : String → String)
  nodeHa : Table NodeHaRow.nodeId
  vms : Table VmRow.id
  vmSshKeys : Table (id : VmSshKeyRow → VmSshKeyRow)
  vmNics : Table fun r : VmNicRow => (r.vmId, r.position)
  vmIpv6 : Table fun r : VmIpv6Row => (r.vmId, r.position)
  vmPlacement : Table VmPlacementRow.vmId
  vmGpuBindings : Table VmGpuRow.vmId
  vmHa : Table VmHaRow.vmId
  networks : Table fun r : NetworkRow => (r.name, r.nodeId)
  networkPolicy : Table fun r : NetworkPolicyRow => (r.nodeId, r.name)
  vxlanReleasedIps : Table (id : ReleasedAddressRow → ReleasedAddressRow)
  ipv6Released : Table (id : ReleasedAddressRow → ReleasedAddressRow)
  securityGroups : Table SecurityGroupRow.name
  securityGroupRules : Table SecurityGroupRuleRow.id
  securityGroupVmAttachments : Table (id : SecurityGroupVmAttachmentRow → SecurityGroupVmAttachmentRow)
  securityGroupNetworkAttachments : Table (id : SecurityGroupNetworkAttachmentRow → SecurityGroupNetworkAttachmentRow)
  volumes : Table VolumeRow.id
  volumeSnapshots : Table VolumeSnapshotRow.id
  sshKeys : Table SshKeyRow.name
  operators : Table OperatorRow.name
  operatorRoles : Table (id : OperatorRoleRow → OperatorRoleRow)
  operatorCredentials : Table OperatorCredentials.operatorName
  authTokens : Table AuthTokenRow.id
  controllerPeers : Table ControllerPeerRow.controllerId
  diskLayouts : Table DiskLayoutRow.name
  postgresqlInstances : Table PostgresqlRow.name
  slurmClusters : Table SlurmClusterRow.name
  slurmClusterNodes : Table SlurmClusterNodeRow.nodeId

def DomainTables.empty : DomainTables where
  nodes := .empty
  nodeLabels := .empty
  workloads := .empty
  issuedCertificates := .empty
  pendingNodeConfigPush := .empty
  nodeHa := .empty
  vms := .empty
  vmSshKeys := .empty
  vmNics := .empty
  vmIpv6 := .empty
  vmPlacement := .empty
  vmGpuBindings := .empty
  vmHa := .empty
  networks := .empty
  networkPolicy := .empty
  vxlanReleasedIps := .empty
  ipv6Released := .empty
  securityGroups := .empty
  securityGroupRules := .empty
  securityGroupVmAttachments := .empty
  securityGroupNetworkAttachments := .empty
  volumes := .empty
  volumeSnapshots := .empty
  sshKeys := .empty
  operators := .empty
  operatorRoles := .empty
  operatorCredentials := .empty
  authTokens := .empty
  controllerPeers := .empty
  diskLayouts := .empty
  postgresqlInstances := .empty
  slurmClusters := .empty
  slurmClusterNodes := .empty

end Kcore
