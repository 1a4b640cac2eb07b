import Mathlib.Data.List.Find
import Kcore.Net.Ipv4
import Kcore.Store.Rows

/-!
# Addresses behind a NAT gateway

`reserveNatVmIpForNetwork` gives a VM an address of the gateway's /24 with a host part from 10 to 249: the first one,
counted from a hash of the VM's id, that no VM and no interface of the network on the node holds. The gateway itself is
taken to be below 10. `reserves_free_iff` says for which gateways and stored addresses the answer is a free address.
-/

namespace Kcore.NatReserve

inductive ReserveError where
  | internal (message : String)
  | resourceExhausted (message : String)
  deriving DecidableEq

def minHost : Nat := 10

def poolSize : Nat := 240

def hostOn (pre ip : String) : Option Nat :=
  match splitAll ip '.' with
  | v0 :: v1 :: v2 :: v3 :: _ => if v0 ++ "." ++ v1 ++ "." ++ v2 = pre then parseU16 v3 else none
  | _ => none

/-- The addresses of the VMs of the node on the network, and those of `list_nic_ips_on_node_network`. -/
def storedAddresses (d : DomainTables) (nodeId network : String) : List String :=
  ((d.vms.rows.filter fun vm => vm.nodeId = nodeId && vm.network = network && vm.vmIp ≠ "").map (·.vmIp)) ++
  ((d.vmNics.rows.filter fun nic => nic.network = network && nic.ipAddress ≠ "" &&
      d.vms.rows.any fun vm => vm.id = nic.vmId && vm.nodeId = nodeId).map (·.ipAddress))

def seed (vmId : String) : UInt32 := vmId.toUTF8.toList.foldl (fun seed b => seed * 131 + b.toUInt32) 0

def hostAt (vmId : String) (probe : Nat) : Nat := minHost + ((seed vmId).toNat % poolSize + probe) % poolSize

def reserveNatVmIpForNetwork (d : DomainTables) (nodeId vmNetwork vmId gatewayIp : String) :
    Except ReserveError String :=
  match splitAll gatewayIp '.' with
  | o0 :: o1 :: o2 :: _ :: _ =>
    let pre := o0 ++ "." ++ o1 ++ "." ++ o2
    let usedHosts := (storedAddresses d nodeId vmNetwork).filterMap (hostOn pre)
    match (List.range poolSize).find? fun probe => !usedHosts.contains (hostAt vmId probe) with
    | some probe => .ok (pre ++ "." ++ toString (hostAt vmId probe))
    | none => .error (.resourceExhausted ("no free NAT reservation addresses for network '" ++ vmNetwork ++
        "' on node '" ++ nodeId ++ "'"))
  | _ => .error (.internal ("invalid gateway IP '" ++ gatewayIp ++ "'"))

/-! ### What is free -/

section

variable (d : DomainTables) (nodeId network : String) (a b c g : Nat)

def Held (host : Nat) : Prop := ∃ ip ∈ storedAddresses d nodeId network, parseIpv4 ip = some (a, b, c, host)

def Free (host : Nat) : Prop := 10 ≤ host ∧ host ≤ 249 ∧ host ≠ g ∧ ¬ Held d nodeId network a b c host

/-- The answer is a free address, or that there is none. -/
def AnswersFree (answer : Except ReserveError String) : Prop :=
  match answer with
  | .ok ip => ∃ host, Free d nodeId network a b c g host ∧ ip = dotted a b c host
  | .error (.resourceExhausted _) => ∀ host, ¬ Free d nodeId network a b c g host
  | .error (.internal _) => False

/-- The gateway's host part is in the pool, nobody holds it, and somebody holds each of those tried before it. -/
def GatewayFirst (vmId : String) : Prop :=
  ∃ probe < poolSize, hostAt vmId probe = g ∧ ¬ Held d nodeId network a b c g ∧
    ∀ earlier < probe, Held d nodeId network a b c (hostAt vmId earlier)

variable {d nodeId network a b c}

theorem hostAt_mem_pool (vmId : String) (probe : Nat) : 10 ≤ hostAt vmId probe ∧ hostAt vmId probe ≤ 249 := by
  have := Nat.mod_lt ((seed vmId).toNat % poolSize + probe) (show 0 < poolSize by decide)
  unfold hostAt minHost
  unfold poolSize at *
  omega

theorem exists_probe (vmId : String) {host : Nat} (hlo : 10 ≤ host) (hhi : host ≤ 249) :
    ∃ probe < poolSize, hostAt vmId probe = host := by
  refine ⟨(host - 10 + (poolSize - (seed vmId).toNat % poolSize)) % poolSize, Nat.mod_lt _ (by decide), ?_⟩
  unfold hostAt minHost poolSize
  omega

theorem hostOn_of_parse {ip : String} {x y z host : Nat} (h : parseIpv4 ip = some (x, y, z, host)) :
    hostOn (toString a ++ "." ++ toString b ++ "." ++ toString c) ip =
      if (x, y, z) = (a, b, c) then some host else none := by
  obtain ⟨⟨-, -, -, hhost⟩, rfl⟩ := parseIpv4_eq_some h
  have hpre :
      toString x ++ "." ++ toString y ++ "." ++ toString z = toString a ++ "." ++ toString b ++ "." ++ toString c ↔
      (x, y, z) = (a, b, c) := by
    constructor
    · intro heq
      have hdot : dotted x y z 0 = dotted a b c 0 := by rw [dotted, dotted, heq]
      obtain ⟨rfl, rfl, rfl, -⟩ := dotted_inj hdot
      rfl
    · intro heq
      cases heq
      rfl
  have hparse : parseU16 (toString host) = some host := parseUnsigned_toString (by omega)
  simp only [hostOn, splitAll_dotted, hpre, hparse]

theorem mem_used_iff (haddr : ∀ ip ∈ storedAddresses d nodeId network, (parseIpv4 ip).isSome) (host : Nat) :
    host ∈ (storedAddresses d nodeId network).filterMap
        (hostOn (toString a ++ "." ++ toString b ++ "." ++ toString c)) ↔
      Held d nodeId network a b c host := by
  rw [List.mem_filterMap]
  constructor
  · rintro ⟨ip, hip, hhost⟩
    obtain ⟨⟨x, y, z, w⟩, hparse⟩ := Option.isSome_iff_exists.mp (haddr ip hip)
    rw [hostOn_of_parse hparse] at hhost
    split at hhost
    · rename_i heq
      cases heq
      cases hhost
      exact ⟨ip, hip, hparse⟩
    · cases hhost
  · rintro ⟨ip, hip, hparse⟩
    exact ⟨ip, hip, by rw [hostOn_of_parse hparse, if_pos rfl]⟩

end

/-- For a gateway and stored texts that are addresses, the answer is right exactly if the gateway's own host part is not
the first that comes up unheld. -/
theorem reserves_free_iff (d : DomainTables) (nodeId network vmId gatewayIp : String) {a b c g : Nat}
    (hgateway : parseIpv4 gatewayIp = some (a, b, c, g))
    (haddr : ∀ ip ∈ storedAddresses d nodeId network, (parseIpv4 ip).isSome) :
    AnswersFree d nodeId network a b c g (reserveNatVmIpForNetwork d nodeId network vmId gatewayIp) ↔
      ¬ GatewayFirst d nodeId network a b c g vmId := by
  obtain ⟨-, rfl⟩ := parseIpv4_eq_some hgateway
  unfold reserveNatVmIpForNetwork
  rw [splitAll_dotted]
  dsimp only
  have hused := fun probe => mem_used_iff (a := a) (b := b) (c := c) haddr (hostAt vmId probe)
  split
  · -- The first host part that is not held is the answer.
    rename_i probe hfind
    rw [List.find?_range_eq_some] at hfind
    obtain ⟨hfree, hlt, hearlier⟩ := hfind
    simp only [List.mem_range, Bool.not_eq_true', List.contains_eq_mem, decide_eq_false_iff_not, Bool.not_not,
      decide_eq_true_eq, hused] at hfree hlt hearlier
    have hpool := hostAt_mem_pool vmId probe
    constructor
    · rintro ⟨host, hhost, heq⟩ ⟨probe', -, rfl, hnot, hbefore⟩
      have hsame : hostAt vmId probe = host := (dotted_inj heq).2.2.2
      have hge : ¬ probe < probe' := fun h => hfree (hbefore probe h)
      have hle : ¬ probe' < probe := fun h => hnot (hearlier probe' h)
      obtain rfl : probe' = probe := by omega
      exact hhost.2.2.1 hsame.symm
    · intro hgate
      refine ⟨hostAt vmId probe, ⟨hpool.1, hpool.2, ?_, hfree⟩, rfl⟩
      rintro rfl
      exact hgate ⟨probe, hlt, rfl, hfree, hearlier⟩
  · rename_i hfind
    rw [List.find?_range_eq_none] at hfind
    simp only [Bool.not_not, List.contains_eq_mem, decide_eq_true_eq, hused] at hfind
    refine iff_of_true ?_ ?_
    · rintro host ⟨hlo, hhi, -, hnot⟩
      obtain ⟨probe, hlt, rfl⟩ := exists_probe vmId hlo hhi
      exact hnot (hfind probe hlt)
    · rintro ⟨probe, hlt, rfl, hnot, -⟩
      exact hnot (hfind probe hlt)

def noVms : DomainTables := .empty

/-- The address 10.0.0.41, which is tried first for the next VM, is held. -/
def oneVm : DomainTables :=
  { noVms with
    vms := Keyed.Table.empty.put { VmRow.sample "vm-0" with network := "lan", nodeId := "n1", vmIp := "10.0.0.41" } }

theorem gateway_below_pool :
    AnswersFree oneVm "n1" "lan" 10 0 0 1 (reserveNatVmIpForNetwork oneVm "n1" "lan" "vm-1" "10.0.0.1") := by
  refine (reserves_free_iff oneVm "n1" "lan" "vm-1" "10.0.0.1" (by decide) (by decide)).mpr ?_
  rintro ⟨probe, -, hprobe, -⟩
  have := hostAt_mem_pool "vm-1" probe
  omega

/-- The VM gets the address of the gateway. -/
theorem gateway_handed_out :
    reserveNatVmIpForNetwork noVms "n1" "lan" "vm-1" "10.0.0.41" = .ok "10.0.0.41" ∧
    ¬ AnswersFree noVms "n1" "lan" 10 0 0 41 (reserveNatVmIpForNetwork noVms "n1" "lan" "vm-1" "10.0.0.41") := by
  have hanswer : reserveNatVmIpForNetwork noVms "n1" "lan" "vm-1" "10.0.0.41" = .ok "10.0.0.41" := by decide +kernel
  rw [hanswer]
  refine ⟨rfl, ?_⟩
  rintro ⟨host, ⟨-, -, hne, -⟩, heq⟩
  have htext : "10.0.0.41" = dotted 10 0 0 41 := by decide
  exact hne (dotted_inj (heq.symm.trans htext)).2.2.2

end Kcore.NatReserve
