import Kcore.Store.Node

/-!
# VM rows

The queries on `vms` and the tables keyed on it, all of which follow the VM when it is deleted, and the
canonical form of its PCI addresses.
-/

namespace Kcore

open Keyed

/-! ### PCI addresses -/

def isHexDigit (c : Char) : Bool := ('0' ≤ c && c ≤ '9') || ('a' ≤ c && c ≤ 'f') || ('A' ≤ c && c ≤ 'F')

def isHex (s : String) (len : Nat) : Bool := s.toList.length = len && s.toList.all isHexDigit

def isFunc (s : String) : Bool := s.toList.length = 1 && s.toList.all fun c => '0' ≤ c && c ≤ '7'

def normalizePciBdf (raw : String) : Except String String :=
  let s := toAsciiLowercase (trim raw)
  let malformed : Except String String := .error ("PCI address '" ++ raw ++ "' must look like 0000:03:00.0")
  if s = "" then .error "PCI address is empty"
  else match splitOnce s ':' with
    | none => malformed
    | some (first, afterFirst) =>
      let (domain, rest) := if ':' ∈ afterFirst.toList then (first, afterFirst) else ("0000", s)
      match splitOnce rest ':' with
      | none => malformed
      | some (bus, devfn) => match splitOnce devfn '.' with
        | none => malformed
        | some (dev, func) =>
          if isHex domain 4 && isHex bus 2 && isHex dev 2 && isFunc func then
            .ok (domain ++ ":" ++ bus ++ ":" ++ dev ++ "." ++ func)
          else malformed

/-- The loop of `join_pci_devices`, with the addresses already accepted. -/
def collectPciDevices (out : List String) : List String → Except String (List String)
  | [] => .ok out
  | raw :: rest => match normalizePciBdf raw with
    | .error e => .error e
    | .ok bdf =>
      if out.contains bdf then .error ("duplicate PCI address " ++ bdf) else collectPciDevices (out ++ [bdf]) rest

def joinPciDevices (addrs : List String) : Except String String :=
  (collectPciDevices [] addrs).map (",".intercalate ·)

def splitPciDevices (stored : String) : List String :=
  ((stored.toList.splitOnP (· = ',')).map (trim ∘ String.ofList)).filter (· ≠ "")

example : normalizePciBdf " 03:00.1" = .ok "0000:03:00.1" := by decide

/-! ### The VM row -/

/-- `WHERE id = ? OR name = ?`. -/
def VmRow.named (idOrName : String) (vm : VmRow) : Bool := vm.id = idOrName || vm.name = idOrName

/-- `UPDATE vms SET … WHERE …`, and whether a row was changed. -/
def updateVms (p : VmRow → Bool) (f : VmRow → VmRow) (hf : ∀ vm, (f vm).id = vm.id) : Query Bool := do
  let found ← Tx.read fun d => d.vms.any p
  Tx.write fun d => { d with vms := d.vms.update p f hf }
  return found

def upsertVm (vm : VmRow) : Query Unit := do
  let nodeThere ← Tx.read fun d => d.nodes.has vm.nodeId
  if !nodeThere then throw foreignKeyFailed
  Tx.write fun d => { d with vms := d.vms.put vm }

def setVmAutoStart (idOrName : String) (autoStart : Bool) : Query Bool :=
  updateVms (VmRow.named idOrName) (fun vm => { vm with autoStart := autoStart }) fun _ => rfl

def setVmRuntimeById (vmId state : String) : Query Bool :=
  updateVms (·.id = vmId) (fun vm => { vm with runtimeState := state }) fun _ => rfl

def setVmLabels (idOrName labelsJson : String) : Query Bool :=
  updateVms (VmRow.named idOrName) (fun vm => { vm with labels := labelsJson }) fun _ => rfl

def updateVmSpec (idOrName : String) (cpu memoryBytes : Option Int) : Query Bool :=
  if cpu.isNone && memoryBytes.isNone then pure false
  else updateVms (VmRow.named idOrName)
    (fun vm => { vm with cpu := cpu.getD vm.cpu, memoryBytes := memoryBytes.getD vm.memoryBytes }) fun _ => rfl

def setVmNode (vmId nodeId : String) : Query Bool := do
  let vmThere ← Tx.read fun d => d.vms.has vmId
  let nodeThere ← Tx.read fun d => d.nodes.has nodeId
  if vmThere && !nodeThere then throw foreignKeyFailed
  updateVms (·.id = vmId) (fun vm => { vm with nodeId := nodeId }) fun _ => rfl

theorem exec_setVmNode (vmId nodeId : String) (d : DomainTables) :
    ((setVmNode vmId nodeId).exec d).2 = d ∨ ((setVmNode vmId nodeId).exec d).2 =
      { d with vms := d.vms.update (·.id = vmId) (fun vm => { vm with nodeId := nodeId }) fun _ => rfl } := by
  unfold setVmNode
  rw [Tx.exec_read_bind, Tx.exec_read_bind]
  split
  · exact .inl rfl
  · exact .inr rfl

/-! ### Tables keyed on the VM -/

def requireVm (vmId : String) : Query Unit := do
  let vmThere ← Tx.read fun d => d.vms.has vmId
  if !vmThere then throw foreignKeyFailed

def setVmGpu (vmId gpuName : String) : Query Unit := do
  requireVm vmId
  Tx.write fun d => { d with vmGpuBindings := d.vmGpuBindings.put ⟨vmId, gpuName⟩ }

def clearVmGpu (vmId : String) : Query Unit :=
  Tx.write fun d => { d with vmGpuBindings := d.vmGpuBindings.erase vmId }

def associateVmSshKeys (vmId : String) : List String → Query Unit
  | [] => pure ()
  | keyName :: rest => do
    let there ← Tx.read fun d => d.vmSshKeys.has ⟨vmId, keyName⟩
    if !there then
      requireVm vmId
      let keyThere ← Tx.read fun d => d.sshKeys.has keyName
      if !keyThere then throw foreignKeyFailed
      Tx.write fun d => { d with vmSshKeys := d.vmSshKeys.put ⟨vmId, keyName⟩ }
    associateVmSshKeys vmId rest

def insertVmNics (vmId : String) : List VmNicRow → Query Unit
  | [] => pure ()
  | nic :: rest => do
    let there ← Tx.read fun d => d.vmNics.has (vmId, nic.position)
    if there then throw (uniqueFailed "vm_nics.vm_id, vm_nics.position")
    requireVm vmId
    Tx.write fun d => { d with vmNics := d.vmNics.put { nic with vmId := vmId } }
    insertVmNics vmId rest

def replaceVmNics (vmId : String) (nics : List VmNicRow) : Query Unit := do
  Tx.write fun d => { d with vmNics := d.vmNics.filter (·.vmId ≠ vmId) }
  insertVmNics vmId nics

/-- `replace_vm_ipv6`: one transaction, so a repeated position leaves the addresses as they were. -/
def replaceVmIpv6 (vmId : String) (rows : List VmIpv6Row) : Query Unit := do
  unless (rows.map (·.position)).Nodup do throw (uniqueFailed "vm_ipv6.vm_id, vm_ipv6.position")
  unless rows.isEmpty do requireVm vmId
  Tx.write fun d =>
    let kept := d.vmIpv6.filter (·.vmId ≠ vmId)
    { d with vmIpv6 := rows.foldl (fun t row => t.put { row with vmId := vmId }) kept }

def setVmAntiAffinity (vmId antiAffinity : String) : Query Unit := do
  requireVm vmId
  Tx.write fun d => { d with vmPlacement := d.vmPlacement.put ⟨vmId, antiAffinity⟩ }

def getVmHa (vmId : String) : Query (Option VmHaRow) := Tx.read fun d => d.vmHa.get vmId

/-- `upsert_vm_ha`: a row that is there keeps its replica progress and its heartbeat. -/
def upsertVmHa (row : VmHaRow) : Query Unit := do
  requireVm row.vmId
  Tx.write fun d =>
    let stored := match d.vmHa.get row.vmId with
      | some old => { row with
          lastReplicaAt := old.lastReplicaAt
          lastReplicaSnapshot := old.lastReplicaSnapshot
          lastGuestHeartbeat := old.lastGuestHeartbeat }
      | none => row
    { d with vmHa := d.vmHa.put stored }

def setVmReplicaProgress (vmId : String) (atUnix : Int) (snapshot : String) : Query Unit := Tx.write fun d =>
  let rows := d.vmHa.update (·.vmId = vmId)
    (fun r => { r with lastReplicaAt := atUnix, lastReplicaSnapshot := snapshot }) fun _ => rfl
  { d with vmHa := rows }

def defaultVmHa (vmId : String) : VmHaRow where
  vmId := vmId
  restartPriority := "medium"
  vmMonitoring := "off"
  vmMonitoringSecs := 0
  replicaNode := ""
  replicaIntervalSecs := 0
  lastReplicaAt := 0
  lastReplicaSnapshot := ""
  lastGuestHeartbeat := 0

def setGuestHeartbeatById (vmId : String) (unix : Int) : Query Unit := do
  requireVm vmId
  Tx.write fun d =>
    { d with vmHa := d.vmHa.put { (d.vmHa.get vmId).getD (defaultVmHa vmId) with lastGuestHeartbeat := unix } }

/-! ### Deleting a VM -/

def ipv6Scope (isGlobal : Bool) (nodeId network : String) : String :=
  if isGlobal then network else nodeId ++ "/" ++ network

def releaseVxlanIp (nodeId network ip : String) (d : DomainTables) : DomainTables :=
  if trim ip = "" then d
  else match d.networks.get (network, nodeId) with
    | none => d
    | some net =>
      if net.networkType ≠ "vxlan" ∨ ip = net.gatewayIp then d
      else { d with vxlanReleasedIps := d.vxlanReleasedIps.put ⟨network, ip⟩ }

def releaseIpv6 (nodeId network address : String) (d : DomainTables) : DomainTables :=
  if trim address = "" then d
  else match d.networkPolicy.get (nodeId, network) with
    | none => d
    | some policy =>
      if address = policy.ipv6Gateway then d
      else
        let isGlobal := match d.networks.get (network, nodeId) with
          | some net => net.networkType = "vxlan"
          | none => false
        { d with ipv6Released := d.ipv6Released.put ⟨ipv6Scope isGlobal nodeId network, address⟩ }

def releaseVmAddresses (vm : VmRow) (d : DomainTables) : DomainTables :=
  let d := releaseVxlanIp vm.nodeId vm.network vm.vmIp d
  let extras := d.vmNics.rows.filter (·.vmId = vm.id)
  let d := extras.foldl (fun d nic => releaseVxlanIp vm.nodeId nic.network nic.ipAddress d) d
  let networkOf (position : Int) : String :=
    if position = 0 then vm.network
    else ((extras.find? (·.position = position)).map (·.network)).getD vm.network
  (d.vmIpv6.rows.filter (·.vmId = vm.id)).foldl
    (fun d row => releaseIpv6 vm.nodeId (networkOf row.position) row.address d) d

/-- Remove the VMs that satisfy `p`, and every row keyed on them. -/
def removeVms (p : VmRow → Bool) (d : DomainTables) : DomainTables :=
  let kept (vmId : String) : Bool := !d.vms.any fun vm => p vm && vm.id = vmId
  { d with
    vms := d.vms.filter (!p ·)
    vmSshKeys := d.vmSshKeys.filter (kept ·.vmId)
    vmNics := d.vmNics.filter (kept ·.vmId)
    vmIpv6 := d.vmIpv6.filter (kept ·.vmId)
    vmPlacement := d.vmPlacement.filter (kept ·.vmId)
    vmGpuBindings := d.vmGpuBindings.filter (kept ·.vmId)
    vmHa := d.vmHa.filter (kept ·.vmId)
    securityGroupVmAttachments := d.securityGroupVmAttachments.filter (kept ·.vmId) }

def deleteVmByIdOrName (idOrName : String) : Query Bool := do
  let found ← Tx.read fun d => d.vms.rows.filter (VmRow.named idOrName)
  if found.isEmpty then return false
  Tx.write fun d => removeVms (VmRow.named idOrName) (found.foldl (fun d vm => releaseVmAddresses vm d) d)
  return true

end Kcore
