import Kcore.Store.Network

/-!
# Accounts, controllers and services

The queries on SSH keys, operators and their credentials, controller peers, disk layouts, PostgreSQL instances
and Slurm clusters.
-/

namespace Kcore

open Keyed

/-! ### SSH keys and operators -/

def upsertSshKey (name publicKey : String) : Query Unit :=
  Tx.write fun d => { d with sshKeys := d.sshKeys.put ⟨name, publicKey⟩ }

def deleteSshKey (name : String) : Query Bool := do
  let found ← Tx.read fun d => d.sshKeys.has name
  Tx.write fun d => { d with
    vmSshKeys := d.vmSshKeys.filter (·.keyName ≠ name)
    sshKeys := d.sshKeys.erase name }
  return found

def upsertOperatorRow (row : OperatorRow) : Query Unit :=
  Tx.write fun d => { d with operators := d.operators.put row }

/-- `delete_operator`, with the roles, credentials and tokens that follow the operator. -/
def deleteOperator (name : String) : Query Bool := do
  let found ← Tx.read fun d => d.operators.has name
  if !found then return false
  Tx.write fun d => { d with
    operators := d.operators.erase name
    operatorRoles := d.operatorRoles.filter (·.operatorName ≠ name)
    operatorCredentials := d.operatorCredentials.erase name
    authTokens := d.authTokens.filter (·.operatorName ≠ name) }
  return true

def requireOperator (name : String) : Query Unit := do
  let there ← Tx.read fun d => d.operators.has name
  if !there then throw foreignKeyFailed

def grantOperatorRoleStr (operatorName role : String) : Query Unit := do
  requireOperator operatorName
  Tx.write fun d => { d with operatorRoles := d.operatorRoles.put ⟨operatorName, role⟩ }

def revokeOperatorRoleStr (operatorName role : String) : Query Bool := do
  let found ← Tx.read fun d => d.operatorRoles.has ⟨operatorName, role⟩
  Tx.write fun d => { d with operatorRoles := d.operatorRoles.erase ⟨operatorName, role⟩ }
  return found

/-- `upsert_operator_credentials`: a row written later than `creds` stays, and the answer says so. -/
def upsertOperatorCredentials (creds : OperatorCredentials) : Query Bool := do
  requireOperator creds.operatorName
  let newer ← Tx.read fun d => match d.operatorCredentials.get creds.operatorName with
    | some old => decide (creds.updatedAt < old.updatedAt)
    | none => false
  if newer then return false
  Tx.write fun d => { d with operatorCredentials := d.operatorCredentials.put creds }
  return true

/-- `delete_operator_tokens` without a token to keep. -/
def deleteOperatorTokens (name kind : String) : Query Unit := Tx.write fun d =>
  { d with authTokens := d.authTokens.filter fun t => !(t.operatorName = name && t.kind = kind) }

def insertAuthToken (row : AuthTokenRow) : Query Unit := do
  let there ← Tx.read fun d => d.authTokens.has row.id
  if there then return
  let hashTaken ← Tx.read fun d => d.authTokens.any (·.tokenHash = row.tokenHash)
  if hashTaken then throw (uniqueFailed "auth_tokens.token_hash")
  requireOperator row.operatorName
  Tx.write fun d => { d with authTokens := d.authTokens.put row }

def deleteAuthToken (id : String) : Query Bool := do
  let found ← Tx.read fun d => d.authTokens.has id
  Tx.write fun d => { d with authTokens := d.authTokens.erase id }
  return found

/-! ### Controllers and services -/

def upsertControllerPeer (controllerId address dcId : String) : Query Unit :=
  Tx.write fun d => { d with controllerPeers := d.controllerPeers.put ⟨controllerId, address, dcId⟩ }

def upsertDiskLayout (row : DiskLayoutRow) : Query Unit := do
  let nodeThere ← Tx.read fun d => d.nodes.has row.nodeId
  if !nodeThere then throw foreignKeyFailed
  Tx.write fun d => { d with diskLayouts := d.diskLayouts.put row }

def deleteDiskLayout (name : String) : Query Bool := do
  let found ← Tx.read fun d => d.diskLayouts.has name
  Tx.write fun d => { d with diskLayouts := d.diskLayouts.erase name }
  return found

def upsertPostgresql (row : PostgresqlRow) : Query Unit := do
  let nodeTaken ← Tx.read fun d => d.postgresqlInstances.any fun p => p.nodeId = row.nodeId && p.name ≠ row.name
  if nodeTaken then throw (uniqueFailed "postgresql_instances.node_id")
  let nodeThere ← Tx.read fun d => d.nodes.has row.nodeId
  if !nodeThere then throw foreignKeyFailed
  Tx.write fun d => { d with postgresqlInstances := d.postgresqlInstances.put row }

def deletePostgresql (name : String) : Query Bool := do
  let found ← Tx.read fun d => d.postgresqlInstances.has name
  Tx.write fun d => { d with postgresqlInstances := d.postgresqlInstances.erase name }
  return found

/-- `upsert_slurm_cluster`: an empty key or password leaves the stored one alone. -/
def upsertSlurmCluster (row : SlurmClusterRow) : Query Unit := Tx.write fun d =>
  let stored := match d.slurmClusters.get row.name with
    | some old => { row with
        mungeKey := if row.mungeKey = [] then old.mungeKey else row.mungeKey
        dbdPassword := if row.dbdPassword = "" then old.dbdPassword else row.dbdPassword }
    | none => row
  { d with slurmClusters := d.slurmClusters.put stored }

def replaceSlurmClusterNodes (clusterName : String) (rows : List SlurmClusterNodeRow) : Query Unit := do
  let clusterThere ← Tx.read fun d => d.slurmClusters.has clusterName
  if !rows.isEmpty && !clusterThere then throw foreignKeyFailed
  Tx.write fun d =>
    let kept := d.slurmClusterNodes.filter (·.clusterName ≠ clusterName)
    { d with slurmClusterNodes := rows.foldl (fun t row => t.put row) kept }

def deleteSlurmCluster (name : String) : Query Bool := do
  let found ← Tx.read fun d => d.slurmClusters.has name
  Tx.write fun d => { d with
    slurmClusterNodes := d.slurmClusterNodes.filter (·.clusterName ≠ name)
    slurmClusters := d.slurmClusters.erase name }
  return found

def hexValue (b : UInt8) : Option Nat :=
  let n := b.toNat
  if 48 ≤ n ∧ n ≤ 57 then some (n - 48)
  else if 97 ≤ n ∧ n ≤ 102 then some (n - 87)
  else if 65 ≤ n ∧ n ≤ 70 then some (n - 55)
  else none

/-- `slurm_unhex` on bytes: pairs that are not two digits are skipped, a last odd byte is dropped. -/
def unhexBytes : List UInt8 → List UInt8
  | hi :: lo :: rest => match hexValue hi, hexValue lo with
    | some h, some l => UInt8.ofNat (h * 16 + l) :: unhexBytes rest
    | _, _ => unhexBytes rest
  | _ => []

def slurmUnhex (raw : String) : List UInt8 := unhexBytes raw.toUTF8.toList

end Kcore
