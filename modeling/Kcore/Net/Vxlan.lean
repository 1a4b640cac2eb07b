import Mathlib.Data.List.MinMax
import Mathlib.Data.String.Basic
import Kcore.Net.Ipv4
import Kcore.Replication.Dispatch

/-!
# Networks and the addresses of an overlay

`create_network` and `delete_network` of the controller, the rows a VM holds its addresses in, and
`allocate_vm_ip_global`, which hands out the addresses of a network that spans several nodes: a released address
if there is one that nobody holds, and the counter of the network's rows if there is none.
-/

namespace Kcore

open Keyed

/-! ### Requests -/

def validateNetworkName (raw : String) : Except String String :=
  let name := trim raw
  if name = "" then .error "network name is required"
  else if name = "default" then
    .error "network name 'default' is reserved; configure it via controller defaultNetwork"
  else if name.toList.all fun c => c.isAlphanum || c = '-' || c = '_' then .ok name
  else .error "network name must contain only letters, digits, '-' or '_'"

def validateIpv4 (value field : String) : Except String String :=
  let text := trim value
  if text = "" then .error (field ++ " is required")
  else if (parseIpv4 text).isSome then .ok text
  else .error (field ++ " must be a valid IPv4 address")

def contiguousMask : List Bool → Bool
  | [] => true
  | true :: bits => contiguousMask bits
  | false :: bits => bits.all (!·)

def maskBits (mask : Nat × Nat × Nat × Nat) : List Bool :=
  [mask.1, mask.2.1, mask.2.2.1, mask.2.2.2].flatMap fun o => (List.range 8).map fun i => o.testBit (7 - i)

def validateNetmask (value : String) : Except String String := do
  let text ← validateIpv4 value "internal_netmask"
  match parseIpv4 text with
  | none => .error "internal_netmask must be a valid IPv4 address"
  | some mask =>
    if contiguousMask (maskBits mask) then .ok text
    else .error "internal_netmask must be contiguous (for example 255.255.255.0)"

def validateNetworkType (raw : String) : Except String String :=
  let networkType := trim raw
  if networkType = "" then .ok "nat"
  else if networkType = "nat" ∨ networkType = "bridge" ∨ networkType = "vxlan" then .ok networkType
  else .error "network_type must be 'nat', 'bridge', or 'vxlan'"

def computeVni (name : String) : Int :=
  let hash : UInt32 := name.toUTF8.toList.foldl (fun hash b => hash * 33 + b.toUInt32) 5381
  10000 + (hash.toNat % 6000 : Nat)

/-- A `CreateNetworkRequest`, with the node it is for and the IPv6 policy it asks for. -/
structure CreateNetworkRequest where
  name : String
  externalIp : String
  gatewayIp : String
  internalNetmask : String
  nodeId : String
  networkType : String
  enableOutboundNat : Bool
  allowedTcpPorts : List Int
  allowedUdpPorts : List Int
  vlanId : Int
  policy : Option (String × String × Bool)

def CreateNetworkRequest.row (req : CreateNetworkRequest)
    (name externalIp gatewayIp internalNetmask networkType : String) :
    NetworkRow where
  name := name
  externalIp := externalIp
  gatewayIp := gatewayIp
  internalNetmask := internalNetmask
  nodeId := req.nodeId
  allowedTcpPorts := ",".intercalate (req.allowedTcpPorts.map toString)
  allowedUdpPorts := ",".intercalate (req.allowedUdpPorts.map toString)
  vlanId := req.vlanId
  networkType := networkType
  enableOutboundNat := if networkType = "bridge" then false
    else if networkType = "vxlan" then req.enableOutboundNat else true
  vni := if networkType = "vxlan" then computeVni name else 0
  nextIp := 2

/-- The part of `create_network` that comes before its first write. -/
def CreateNetworkRequest.check (req : CreateNetworkRequest) : Except String NetworkRow := do
  let name ← validateNetworkName req.name
  let externalIp ← validateIpv4 req.externalIp "external_ip"
  let gatewayIp ← validateIpv4 req.gatewayIp "gateway_ip"
  let internalNetmask ←
    if trim req.internalNetmask = "" then .ok "255.255.255.0" else validateNetmask req.internalNetmask
  let networkType ← validateNetworkType req.networkType
  return req.row name externalIp gatewayIp internalNetmask networkType

def storeNetworkPolicy (network : NetworkRow) : Option (String × String × Bool) → Query Unit
  | none => pure ()
  | some (ipv6Prefix, ipv6Gateway, eastWest) => (upsertNetworkPolicy {
      nodeId := network.nodeId
      name := network.name
      eastWest := eastWest
      ipv6Prefix := ipv6Prefix
      ipv6Gateway := ipv6Gateway
      ipv6Next := 2 }).context "storing network policy"

def storeNetwork (node : NodeRow) (network : NetworkRow) (policy : Option (String × String × Bool)) : Query Unit := do
  if network.networkType = "bridge" ∧ network.vlanId = 0 then
    throw ("bridge-mode networks without a VLAN ID enslave the management NIC, which severs host connectivity. " ++
      "Use --vlan-id to create a VLAN sub-interface, or use 'nat' or 'vxlan' network types instead.")
  if network.networkType = "vxlan" ∧ node.disableVxlan then
    throw ("VXLAN is disabled on node '" ++ node.id ++ "'; cannot create vxlan network")
  (insertNetwork network).context "storing network"
  storeNetworkPolicy network policy

/-- `create_network`. A network that is already on the node is left as it is, whether the request repeats it or
asks for another one. -/
def createNetwork (req : CreateNetworkRequest) : Query Unit := do
  let network ← Tx.ofExcept req.check
  let node ← Tx.okOr (← getNode req.nodeId) ("node " ++ req.nodeId ++ " not found")
  let there ← Tx.read fun d => d.networks.has (network.name, network.nodeId)
  if there then return
  storeNetwork node network req.policy

/-- `DeleteNetwork` for a node: refused while a VM of the node has the network as its primary one. -/
def requestNetworkDeletion (nodeId raw : String) : Query Unit := do
  let name := trim raw
  if name = "" then throw "network name is required"
  if name = "default" then throw "cannot delete reserved network 'default'"
  let inUse ← Tx.read fun d => d.vms.any fun vm => vm.nodeId = nodeId && vm.network = name
  if inUse then throw ("network '" ++ name ++ "' is still in use by at least one VM on node '" ++ nodeId ++ "'")
  let deleted ← deleteNetwork nodeId name
  if !deleted then throw ("network '" ++ name ++ "' not found on node '" ++ nodeId ++ "'")

/-! ### VM rows -/

def insertVm (vm : VmRow) : Query Unit := do
  let there ← Tx.read fun d => d.vms.has vm.id
  if there then throw (uniqueFailed "vms.id")
  upsertVm vm

def insertVmNic (nic : VmNicRow) : Query Unit := insertVmNics nic.vmId [nic]

/-! ### Allocation -/

def listNetworksByName (d : DomainTables) (name : String) : List NetworkRow := d.networks.rows.filter (·.name = name)

def freeReleasedIps (d : DomainTables) (name : String) : List ReleasedAddressRow :=
  d.vxlanReleasedIps.rows.filter fun row => row.scope = name &&
    !(d.vms.any fun vm => vm.vmIp ≠ "" && vm.vmIp = row.address) &&
    !(d.vmNics.any fun nic => nic.ipAddress ≠ "" && nic.ipAddress = row.address)

def takeReleasedVxlanIp (name : String) : Query (Option String) := do
  match ← Tx.read fun d => (freeReleasedIps d name).argmin (·.address) with
  | none => return none
  | some row =>
    Tx.write fun d => { d with vxlanReleasedIps := d.vxlanReleasedIps.erase row }
    return some row.address

def further : Option NetworkRow → NetworkRow → Option NetworkRow
  | none, row => some row
  | some best, row => if best.nextIp < row.nextIp then some row else some best

/-- `SELECT gateway_ip, MAX(next_ip)`: the gateway is the one of a row with the largest counter. -/
def furthestRow (d : DomainTables) (name : String) : Option NetworkRow := (listNetworksByName d name).foldl further none

def setNextIp (name : String) (nextIp : Int) (d : DomainTables) : DomainTables :=
  let rows := d.networks.update (·.name = name) (fun r => { r with nextIp := nextIp }) fun _ => rfl
  { d with networks := rows }

/-- The counter branch of `allocate_vm_ip_global`. -/
def takeNextIp (name : String) : Query String := do
  match ← Tx.read fun d => furthestRow d name with
  -- `MAX` over no rows is NULL, which does not decode to a number
  | none => throw "Invalid column type Null at index: 0, name: gateway_ip"
  | some row =>
    Tx.write (setNextIp name (asI32 (row.nextIp + 1)))
    return hostAddress row.gatewayIp row.nextIp

def allocateVmIpGlobal (name : String) : Query String := do
  match ← takeReleasedVxlanIp name with
  | some ip => return ip
  | none => takeNextIp name

end Kcore
