import Kcore.Lib.Checks
import Kcore.Text

/-!
# The spec of a Slurm cluster

What `validate_spec` asks of a spec before it is stored. Identifiers, addresses and interfaces are checked after
trimming; the login nodes are not checked, and a node may be named by several of the entries.
-/

namespace Kcore.Slurm

open Checks

structure SlurmControllerSpec where
  nodeId : String
  address : String
  iface : String

structure SlurmAccountingSpec where
  enabled : Bool
  nodeId : String

structure SlurmComputeSpec where
  nodeId : String
  address : String
  iface : String
  partitions : List String
  reserveCores : Int
  reserveMemoryMb : Int
  gres : String
  deriving DecidableEq

structure SlurmPartitionSpec where
  name : String
  isDefault : Bool
  maxTime : String
  state : String

structure SlurmUserSpec where
  name : String
  uid : Nat

structure SlurmStorageSpec where
  mode : String
  exports : List String
  filesystem : String

structure SlurmClusterSpec where
  clusterName : String
  controller : SlurmControllerSpec
  backupController : Option SlurmControllerSpec
  login : List String
  accounting : SlurmAccountingSpec
  compute : List SlurmComputeSpec
  partitions : List SlurmPartitionSpec
  users : List SlurmUserSpec
  storage : SlurmStorageSpec
  extraConfig : String

def validateToken (field value : String) : Except String Unit := do
  let value := trim value
  check (value ≠ "") (field ++ " is required")
  check (value.utf8ByteSize ≤ 253 ∧ (value.toList.all fun c => c.isAlphanum || "-_.:/".toList.contains c) = true)
    (field ++ " contains unsupported characters: " ++ value)

def validateController (field : String) (controller : SlurmControllerSpec) : Except String Unit := do
  validateToken (field ++ ".nodeId") controller.nodeId
  validateToken (field ++ ".address") controller.address
  validateToken (field ++ ".iface") controller.iface

def validateBackup (spec : SlurmClusterSpec) : Option SlurmControllerSpec → Except String Unit
  | none => .ok ()
  | some backup => do
    validateController "backupController" backup
    check (backup.nodeId ≠ spec.controller.nodeId) "backupController.nodeId must differ from controller.nodeId"

def validatePartitions : List String → List SlurmPartitionSpec → Except String (List String)
  | seen, [] => .ok seen
  | seen, partition :: rest => do
    validateToken "partition name" partition.name
    check (partition.name ∉ seen) ("duplicate partition '" ++ partition.name ++ "'")
    if trim partition.maxTime = "" then .ok () else validateToken "partition maxTime" partition.maxTime
    check (trim partition.state = "" ∨ partition.state ∈ ["UP", "DOWN", "DRAIN"])
      ("partition '" ++ partition.name ++ "' state must be UP, DOWN, or DRAIN")
    validatePartitions (partition.name :: seen) rest

def validateCompute (partitions : List String) : List String → List SlurmComputeSpec → Except String Unit
  | _, [] => .ok ()
  | seen, compute :: rest => do
    validateToken "compute nodeId" compute.nodeId
    validateToken "compute address" compute.address
    validateToken "compute iface" compute.iface
    check (compute.nodeId ∉ seen) ("duplicate node '" ++ compute.nodeId ++ "'")
    check (compute.partitions ≠ []) ("compute node '" ++ compute.nodeId ++ "' needs at least one partition")
    compute.partitions.forM fun partition =>
      check (partition ∈ partitions)
        ("compute node '" ++ compute.nodeId ++ "' references unknown partition '" ++ partition ++ "'")
    check (0 ≤ compute.reserveCores ∧ 0 ≤ compute.reserveMemoryMb)
      ("compute node '" ++ compute.nodeId ++ "' reserve values cannot be negative")
    check (compute.gres = "none" ∨ compute.gres = "auto")
      ("compute node '" ++ compute.nodeId ++ "' gres must be none or auto")
    validateCompute partitions (compute.nodeId :: seen) rest

def validateUsers : List String → List Nat → List SlurmUserSpec → Except String Unit
  | _, _, [] => .ok ()
  | names, uids, user :: rest => do
    validateToken "user name" user.name
    check (user.name ∉ names) ("duplicate user '" ++ user.name ++ "'")
    check (user.uid ≠ 0 ∧ user.uid ∉ uids) ("user '" ++ user.name ++ "' has a duplicate or reserved uid")
    validateUsers (user.name :: names) (user.uid :: uids) rest

def validateStorage (storage : SlurmStorageSpec) : Except String Unit :=
  if storage.mode = "nfs" then do
    check (storage.exports ≠ []) "storage.exports cannot be empty in nfs mode"
    storage.exports.forM fun path => check (startsWith path "/") ("storage export '" ++ path ++ "' must be absolute")
  else if storage.mode = "shared-filesystem" then do
    check (trim storage.filesystem ≠ "") "storage.filesystem is required in shared-filesystem mode"
    check (storage.exports ≠ []) "storage.exports cannot be empty"
  else
    check (storage.mode = "none")
      ("storage.mode must be nfs, shared-filesystem, or none (got " ++ storage.mode ++ ")")

def validateSpec (spec : SlurmClusterSpec) : Except String Unit := do
  check (trim spec.clusterName ≠ "") "clusterName is required"
  validateToken "clusterName" spec.clusterName
  validateController "controller" spec.controller
  validateBackup spec spec.backupController
  check (spec.compute ≠ []) "at least one compute node is required"
  let partitions ← validatePartitions [] spec.partitions
  check (partitions ≠ []) "at least one partition is required"
  validateCompute partitions [] spec.compute
  validateUsers [] [] spec.users
  validateStorage spec.storage
  if spec.accounting.enabled ∧ trim spec.accounting.nodeId ≠ "" then
    validateToken "accounting.nodeId" spec.accounting.nodeId
  else .ok ()

end Kcore.Slurm
