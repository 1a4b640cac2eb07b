import Kcore.Lib.Run
import Kcore.Net.Vxlan

/-!
# Addresses of an overlay are unique

An address that is handed out is to be free, to be no gateway, and to lie in the /24 of the network. What carries
this is that every address of the network that is held or was released lies below the counter, behind the one
gateway its rows have. Allocations, insertions and the deletion of VMs keep that. Creating and deleting a network
row does not: the released addresses outlive the rows and a new row starts to count at 2, so that a network that is
deleted and created again hands out the same address twice.
-/

namespace Kcore

open Keyed Machine

def HoldsIp (d : DomainTables) (name ip : String) : Prop :=
  (∃ vm ∈ d.vms.rows, vm.network = name ∧ vm.vmIp = ip) ∨
    ∃ nic ∈ d.vmNics.rows, nic.network = name ∧ nic.ipAddress = ip

def InUse (d : DomainTables) (name ip : String) : Prop :=
  ⟨name, ip⟩ ∈ d.vxlanReleasedIps.rows ∨ (ip ≠ "" ∧ HoldsIp d name ip)

def NetworkRow.Covers (row : NetworkRow) (ip : String) : Prop :=
  ∃ host : Int, 1 ≤ host ∧ host ≤ 254 ∧ host < row.nextIp ∧ ip = hostAddress row.gatewayIp host ∧ ip ≠ row.gatewayIp

/-- The rows of a network have one gateway, and have counted past every address that is used. -/
structure Settled (rows : List NetworkRow) (used : String → Prop) : Prop where
  parses : ∀ row ∈ rows, (parseIpv4 row.gatewayIp).isSome
  oneGateway : ∀ row ∈ rows, ∀ row' ∈ rows, row.gatewayIp = row'.gatewayIp
  covered : ∀ row ∈ rows, ∀ ip, used ip → ∃ row' ∈ rows, row'.Covers ip

def SettledIn (name : String) (d : DomainTables) : Prop := Settled (listNetworksByName d name) (InUse d name)

inductive AddressAction where
  | createNetwork (req : CreateNetworkRequest)
  | materializeNetwork (c : HeadContext)
  | allocate (name : String)
  | insertVm (vm : VmRow)
  | insertVmNic (nic : VmNicRow)
  | deleteVm (idOrName : String)
  | deleteNetwork (nodeId name : String)

namespace AddressAction

def query : AddressAction → Query Unit
  | .createNetwork req => Kcore.createNetwork req
  | .materializeNetwork c => applyNetworkCreate c
  | .allocate name => do let _ ← allocateVmIpGlobal name
  | .insertVm vm => Kcore.insertVm vm
  | .insertVmNic nic => Kcore.insertVmNic nic
  | .deleteVm idOrName => do let _ ← deleteVmByIdOrName idOrName
  | .deleteNetwork nodeId name => requestNetworkDeletion nodeId name

def step (d : DomainTables) (a : AddressAction) : DomainTables := (a.query.exec d).2

/-- What an allocation on the network is to return: an address that is free, is no gateway of the network and is
a host address of its /24, and that the rows have counted past when it is stored. -/
def AllocatesWell (name : String) (d : DomainTables) : AddressAction → Prop
  | .allocate n => n = name → ∀ ip, ((allocateVmIpGlobal name).exec d).1 = .ok ip →
      ¬ HoldsIp d name ip ∧ listNetworksByName d name ≠ [] ∧
      (∀ row ∈ listNetworksByName d name, ip ≠ row.gatewayIp ∧ Slash24 row.gatewayIp ip) ∧
      ∃ row ∈ listNetworksByName (step d (.allocate n)) name, row.Covers ip
  | _ => True

def MayHold (d : DomainTables) (name ip : String) : Prop :=
  ip ≠ "" → ∀ row ∈ listNetworksByName d name, ∃ row' ∈ listNetworksByName d name, row'.Covers ip

/-- The rows that are there after a creation or a deletion have one gateway and have counted past the addresses in use,
an address that is stored has been counted past, and an allocation finds a released address or a counter that stands for
a host other than the gateway. -/
def RespectsCounter (name : String) (d : DomainTables) : AddressAction → Prop
  | .createNetwork req => ∀ row, req.check = .ok row → row.name = name →
      d.networks.has (row.name, row.nodeId) = false → Settled (row :: listNetworksByName d name) (InUse d name)
  | .materializeNetwork c => ∀ nodeId, c.body.str "nodeId" = some nodeId → c.body.str "name" = some name →
      Settled (networkFromBody c.body nodeId name :: (listNetworksByName d name).filter (·.nodeId ≠ nodeId))
        (InUse d name)
  | .allocate n => n = name → listNetworksByName d name ≠ [] ∧ (freeReleasedIps d name ≠ [] ∨
      ∀ row ∈ furthestRow d name, 1 ≤ row.nextIp ∧ row.nextIp ≤ 254 ∧
        hostAddress row.gatewayIp row.nextIp ≠ row.gatewayIp)
  | .insertVm vm => vm.network = name → MayHold d name vm.vmIp
  | .insertVmNic nic => nic.network = name → MayHold d name nic.ipAddress
  | .deleteVm _ => True
  | .deleteNetwork nodeId raw => trim raw = name →
      Settled ((listNetworksByName d name).filter (·.nodeId ≠ nodeId)) (InUse d name)

end AddressAction

/-! ### Settled rows -/

section Settled

variable {rows rows' : List NetworkRow} {used used' : String → Prop}

theorem Settled.mono (h : Settled rows used) (hrows : ∀ row, row ∈ rows' ↔ row ∈ rows)
    (hused : ∀ ip, used' ip → ∀ row ∈ rows, used ip ∨ ∃ row' ∈ rows, row'.Covers ip) : Settled rows' used' := by
  refine ⟨fun row hrow => h.parses row ((hrows row).mp hrow), fun row hrow row' hrow' => ?_, fun row hrow ip hip => ?_⟩
  · exact h.oneGateway row ((hrows row).mp hrow) row' ((hrows row').mp hrow')
  · have hmem := (hrows row).mp hrow
    rcases hused ip hip row hmem with hold | ⟨row', hrow', hcov⟩
    · obtain ⟨row', hrow', hcov⟩ := h.covered row hmem ip hold
      exact ⟨row', (hrows row').mpr hrow', hcov⟩
    · exact ⟨row', (hrows row').mpr hrow', hcov⟩

theorem Settled.slash24 (h : Settled rows used) {row row' : NetworkRow} (hrow : row ∈ rows) (hrow' : row' ∈ rows)
    {ip : String} (hcov : row'.Covers ip) : ip ≠ row.gatewayIp ∧ Slash24 row.gatewayIp ip := by
  obtain ⟨host, hpos, hle, -, rfl, hne⟩ := hcov
  rw [h.oneGateway row' hrow' row hrow] at hne ⊢
  exact ⟨hne, slash24_hostAddress (h.parses row hrow) hpos hle⟩

end Settled

def addressTables (d : DomainTables) := (d.networks, d.vms, d.vmNics, d.vxlanReleasedIps)

section Congruence

variable {d d' : DomainTables} (h : addressTables d' = addressTables d) (name : String)
include h

theorem listNetworksByName_congr : listNetworksByName d' name = listNetworksByName d name := by
  unfold listNetworksByName
  rw [(Prod.mk.inj h).1]

theorem inUse_congr : InUse d' name = InUse d name := by
  simp only [addressTables, Prod.mk.injEq] at h
  unfold InUse HoldsIp
  rw [h.2.1, h.2.2.1, h.2.2.2]

theorem settledIn_congr : SettledIn name d' ↔ SettledIn name d := by
  unfold SettledIn
  rw [listNetworksByName_congr h, inUse_congr h]

end Congruence

theorem mem_listNetworksByName {d : DomainTables} {name : String} {row : NetworkRow} :
    row ∈ listNetworksByName d name ↔ row ∈ d.networks.rows ∧ row.name = name := by
  simp [listNetworksByName]

/-! ### Creating and deleting network rows -/

section Networks

variable {name n : String} {d : DomainTables} {row : NetworkRow}

theorem settledIn_of_rows {t : Table fun n : NetworkRow => (n.name, n.nodeId)} (h : SettledIn name d)
    (ht : ∀ r : NetworkRow, r.name = name → (r ∈ t.rows ↔ r ∈ d.networks.rows)) :
    SettledIn name { d with networks := t } := by
  refine Settled.mono h (fun r => ?_) fun ip hip _ _ => .inl hip
  rw [mem_listNetworksByName, mem_listNetworksByName]
  exact and_congr_left fun hname => ht r hname

theorem settledIn_put (h : row.name ≠ name → SettledIn name d) (hnew : row.name = name →
      Settled (row :: (listNetworksByName d name).filter (·.nodeId ≠ row.nodeId)) (InUse d name)) :
    SettledIn name { d with networks := d.networks.put row } := by
  by_cases hname : row.name = name
  · refine (hnew hname).mono (fun r => ?_) fun ip hip _ _ => .inl hip
    rw [mem_listNetworksByName, Table.mem_put, List.mem_cons, List.mem_filter, mem_listNetworksByName,
      decide_eq_true_eq]
    constructor
    · rintro ⟨rfl | ⟨hr, hkey⟩, hrname⟩
      · exact .inl rfl
      · exact .inr ⟨⟨hr, hrname⟩, fun hnode => hkey (Prod.ext (hrname.trans hname.symm) hnode)⟩
    · rintro (rfl | ⟨⟨hr, hrname⟩, hnode⟩)
      · exact ⟨.inl rfl, hname⟩
      · exact ⟨.inr ⟨hr, fun hkey => hnode (congrArg Prod.snd hkey)⟩, hrname⟩
  · refine settledIn_of_rows (h hname) fun r hrname => ?_
    have hkey : (r.name, r.nodeId) ≠ (row.name, row.nodeId) :=
      fun hkey => hname ((congrArg Prod.fst hkey).symm.trans hrname)
    rw [Table.mem_put, or_iff_right fun heq => hkey (by rw [heq])]
    exact and_iff_left hkey

theorem settledIn_erase (nodeId : String) (h : SettledIn name d)
    (hrest : n = name → Settled ((listNetworksByName d name).filter (·.nodeId ≠ nodeId)) (InUse d name)) :
    SettledIn name { d with networks := d.networks.erase (n, nodeId) } := by
  by_cases hname : n = name
  · refine (hrest hname).mono (fun r => ?_) fun ip hip _ _ => .inl hip
    rw [mem_listNetworksByName, Table.mem_erase, List.mem_filter, mem_listNetworksByName, decide_eq_true_eq]
    constructor
    · rintro ⟨⟨hr, hkey⟩, hrname⟩
      exact ⟨⟨hr, hrname⟩, fun hnode => hkey (Prod.ext (hrname.trans hname.symm) hnode)⟩
    · rintro ⟨⟨hr, hrname⟩, hnode⟩
      exact ⟨⟨hr, fun hkey => hnode (congrArg Prod.snd hkey)⟩, hrname⟩
  · refine settledIn_of_rows h fun r hrname => Table.mem_erase.trans (and_iff_left fun hkey => ?_)
    exact hname ((congrArg Prod.fst hkey).symm.trans hrname)

theorem insertNetwork_cases (row : NetworkRow) (d : DomainTables) :
    ((insertNetwork row).exec d).2 = d ∨
      (d.networks.has (row.name, row.nodeId) = false ∧
        ((insertNetwork row).exec d).2 = { d with networks := d.networks.put row }) := by
  unfold insertNetwork
  cases hthere : d.networks.has (row.name, row.nodeId) with
  | true => simp [hthere]
  | false => cases hnode : d.nodes.has row.nodeId <;> simp [hthere, hnode]

theorem keeps_storeNetworkPolicy (row : NetworkRow) (policy : Option (String × String × Bool)) :
    Tx.Keeps addressTables (storeNetworkPolicy row policy) := by
  cases policy with
  | none => exact .pure _
  | some p => exact .context _ (.write fun _ => rfl)

theorem settledIn_insertNetwork (h : SettledIn name d) (hnew : row.name = name →
      d.networks.has (row.name, row.nodeId) = false → Settled (row :: listNetworksByName d name) (InUse d name)) :
    SettledIn name ((insertNetwork row).exec d).2 := by
  rcases insertNetwork_cases row d with hsame | ⟨habsent, hput⟩
  · rw [hsame]
    exact h
  · rw [hput]
    refine settledIn_put (fun _ => h) fun hname => ?_
    have hall : (listNetworksByName d name).filter (·.nodeId ≠ row.nodeId) = listNetworksByName d name := by
      refine List.filter_eq_self.mpr fun r hr => ?_
      obtain ⟨hr, hrname⟩ := mem_listNetworksByName.mp hr
      rw [decide_eq_true_eq]
      intro hnode
      have hget := Table.get_of_mem hr
      rw [show (r.name, r.nodeId) = (row.name, row.nodeId) from Prod.ext (hrname.trans hname.symm) hnode] at hget
      simp [Table.has, hget] at habsent
    rw [hall]
    exact hnew hname habsent

theorem settledIn_storeNetwork (node : NodeRow) (policy : Option (String × String × Bool))
    (h : SettledIn name d) (hnew : row.name = name →
      d.networks.has (row.name, row.nodeId) = false → Settled (row :: listNetworksByName d name) (InUse d name)) :
    SettledIn name ((storeNetwork node row policy).exec d).2 := by
  have hstore : SettledIn name (((insertNetwork row).context "storing network" >>= fun _ =>
      storeNetworkPolicy row policy).exec d).2 := by
    rw [settledIn_congr (Tx.Keeps.exec_bind (fun _ => keeps_storeNetworkPolicy row policy) d) name, Tx.exec_context_snd]
    exact settledIn_insertNetwork h hnew
  unfold storeNetwork
  by_cases hbridge : row.networkType = "bridge" ∧ row.vlanId = 0
  · simpa [hbridge] using h
  · by_cases hvxlan : row.networkType = "vxlan" ∧ node.disableVxlan = true
    · simpa [hbridge, hvxlan] using h
    · simpa [hbridge, hvxlan] using hstore

theorem settledIn_createNetwork {req : CreateNetworkRequest} (h : SettledIn name d)
    (hc : AddressAction.RespectsCounter name d (.createNetwork req)) :
    SettledIn name ((createNetwork req).exec d).2 := by
  unfold createNetwork
  cases hcheck : req.check with
  | error e => exact h
  | ok row =>
    rw [Tx.exec_ofExcept_ok_bind, getNode, Tx.exec_read_bind]
    cases d.nodes.get req.nodeId with
    | none => exact h
    | some node =>
      cases hthere : d.networks.has (row.name, row.nodeId) with
      | true => simpa [Tx.okOr, hthere] using h
      | false => simpa [Tx.okOr, hthere] using settledIn_storeNetwork node req.policy h (hc row hcheck)

theorem settledIn_requestNetworkDeletion {nodeId raw : String} (h : SettledIn name d)
    (hc : AddressAction.RespectsCounter name d (.deleteNetwork nodeId raw)) :
    SettledIn name ((requestNetworkDeletion nodeId raw).exec d).2 := by
  have herased := settledIn_erase (n := trim raw) nodeId h hc
  unfold requestNetworkDeletion
  by_cases hempty : trim raw = ""
  · simpa [hempty] using h
  · by_cases hdefault : trim raw = "default"
    · simpa [hempty, hdefault] using h
    · cases hused : d.vms.any fun vm => vm.nodeId = nodeId && vm.network = trim raw with
      | true => simpa [hempty, hdefault, hused] using h
      | false =>
        have hrest : SettledIn name ((deleteNetwork nodeId (trim raw) >>= fun deleted =>
            if !deleted then throw ("network '" ++ trim raw ++ "' not found on node '" ++ nodeId ++ "'")
            else pure () : Query Unit).exec d).2 := by
          refine (settledIn_congr (Tx.Keeps.exec_bind (fun _ => .ite (.throw _) (.pure _)) d) name).mpr ?_
          exact (settledIn_congr rfl name).mpr herased
        simpa [hempty, hdefault, hused] using hrest

theorem ensureReplicatedNodeExists_cases (nodeId : String) (d : DomainTables) :
    ∃ d', (ensureReplicatedNodeExists nodeId).exec d = (.ok (), d') ∧ addressTables d' = addressTables d ∧
      d'.nodes.has nodeId = true := by
  unfold ensureReplicatedNodeExists
  rw [getNode, Tx.exec_read_bind]
  cases hget : d.nodes.get nodeId with
  | some node => exact ⟨d, rfl, rfl, by rw [Table.has, hget]; rfl⟩
  | none =>
    refine ⟨{ d with nodes := d.nodes.put (placeholderNode nodeId) }, ?_, rfl, ?_⟩
    · simp only [Option.isSome_none, Bool.false_eq_true, if_false, upsertNode, Tx.exec_mapErr, Tx.exec_write]
      rw [show d.nodes.get (placeholderNode nodeId).id = none from hget]
    · rw [Table.has, show (d.nodes.put (placeholderNode nodeId)).get nodeId = some _ from Table.get_put_self _ _]
      rfl

theorem exec_replaceNetwork (row : NetworkRow) (hnode : d.nodes.has row.nodeId = true) (msg : String) :
    addressTables ((do
        (deleteNetwork row.nodeId row.name).ignore
        (insertNetwork row).context msg : Query Unit).exec d).2 =
      addressTables { d with networks := (d.networks.erase (row.name, row.nodeId)).put row } := by
  have hdelete : ((deleteNetwork row.nodeId row.name).exec d).2 = { d with
      networkPolicy := d.networkPolicy.erase (row.nodeId, row.name)
      networks := d.networks.erase (row.name, row.nodeId) } := rfl
  have habsent : (d.networks.erase (row.name, row.nodeId)).has (row.name, row.nodeId) = false := by
    rw [Table.has, Table.get_erase, if_pos rfl]
    rfl
  rw [Tx.exec_bind, Tx.exec_ignore, hdelete]
  dsimp only
  rw [Tx.exec_context_snd, insertNetwork]
  simp [habsent, hnode, addressTables]

theorem settledIn_replace (h : SettledIn name d) (hnew : row.name = name →
      Settled (row :: (listNetworksByName d name).filter (·.nodeId ≠ row.nodeId)) (InUse d name)) :
    SettledIn name { d with networks := (d.networks.erase (row.name, row.nodeId)).put row } := by
  refine settledIn_put (d := { d with networks := d.networks.erase (row.name, row.nodeId) }) (fun hother => ?_)
    fun hname => ?_
  · exact settledIn_erase _ h fun hname => absurd hname hother
  · refine (hnew hname).mono (fun r => ?_) fun ip hip _ _ => .inl hip
    simp only [List.mem_cons, List.mem_filter, mem_listNetworksByName, Table.mem_erase, decide_eq_true_eq]
    constructor
    · rintro (rfl | ⟨⟨⟨hr, -⟩, hrname⟩, hnode⟩)
      · exact .inl rfl
      · exact .inr ⟨⟨hr, hrname⟩, hnode⟩
    · rintro (rfl | ⟨⟨hr, hrname⟩, hnode⟩)
      · exact .inl rfl
      · exact .inr ⟨⟨⟨hr, fun hkey => hnode (congrArg Prod.snd hkey)⟩, hrname⟩, hnode⟩

theorem addressTables_applyNetworkCreate {c : HeadContext} {nodeId : String} (hnode : c.body.str "nodeId" = some nodeId)
    (hname : c.body.str "name" = some n) (d : DomainTables) :
    addressTables ((applyNetworkCreate c).exec d).2 = addressTables { d with
      networks := (d.networks.erase (n, nodeId)).put (networkFromBody c.body nodeId n) } := by
  unfold applyNetworkCreate
  rw [exec_requiredStr_bind, hnode]
  dsimp only
  rw [exec_requiredStr_bind, hname]
  dsimp only
  obtain ⟨d', hensure, htables, hthere⟩ := ensureReplicatedNodeExists_cases nodeId d
  rw [Tx.exec_bind_of_ok (a := ()) (by rw [hensure]), hensure, ← bind_assoc]
  have hpolicy : ∀ (row : NetworkPolicyRow) (msg : String) (p q : Prop) [Decidable p] [Decidable q],
      Tx.Keeps addressTables (if p then if q then (upsertNetworkPolicy row).context msg else pure () else pure ()) :=
    fun row msg p q _ _ => .ite (.ite (.context _ (.write fun _ => rfl)) (.pure _)) (.pure _)
  refine (Tx.Keeps.exec_bind (fun _ => hpolicy _ _ _ _) d').trans ?_
  refine (exec_replaceNetwork (networkFromBody c.body nodeId n) hthere _).trans ?_
  simp only [addressTables, Prod.mk.injEq] at htables ⊢
  exact ⟨by rw [htables.1]; rfl, htables.2⟩

theorem settledIn_applyNetworkCreate {c : HeadContext} (h : SettledIn name d)
    (hc : AddressAction.RespectsCounter name d (.materializeNetwork c)) :
    SettledIn name ((applyNetworkCreate c).exec d).2 := by
  cases hnodeId : c.body.str "nodeId" with
  | none =>
    rw [applyNetworkCreate, exec_requiredStr_bind, hnodeId]
    exact h
  | some nodeId =>
    cases hn : c.body.str "name" with
    | none =>
      rw [applyNetworkCreate, exec_requiredStr_bind, hnodeId]
      dsimp only
      rw [exec_requiredStr_bind, hn]
      exact h
    | some n =>
      refine (settledIn_congr (addressTables_applyNetworkCreate hnodeId hn d) name).mpr (settledIn_replace h ?_)
      rintro rfl
      exact hc nodeId hnodeId hn

end Networks

/-! ### Allocation -/

section Allocation

variable {name n : String} {d : DomainTables} {row : NetworkRow}

theorem exec_allocateVmIpGlobal (name : String) (d : DomainTables) :
    (allocateVmIpGlobal name).exec d = match (freeReleasedIps d name).argmin (·.address) with
      | some row => (.ok row.address, { d with vxlanReleasedIps := d.vxlanReleasedIps.erase row })
      | none => (takeNextIp name).exec d := by
  unfold allocateVmIpGlobal takeReleasedVxlanIp
  cases hfree : (freeReleasedIps d name).argmin (·.address) <;> simp [hfree, Tx.exec_map]

theorem exec_takeNextIp (h : furthestRow d name = some row) :
    (takeNextIp name).exec d =
      (.ok (hostAddress row.gatewayIp row.nextIp), setNextIp name (asI32 (row.nextIp + 1)) d) := by
  unfold takeNextIp
  simp [h, Tx.exec_map]

theorem mem_freeReleasedIps {row : ReleasedAddressRow} (h : row ∈ freeReleasedIps d name) :
    row ∈ d.vxlanReleasedIps.rows ∧ row.scope = name ∧ (row.address ≠ "" → ∀ n, ¬ HoldsIp d n row.address) := by
  unfold freeReleasedIps at h
  simp only [List.mem_filter, Bool.and_eq_true, Bool.not_eq_true', Table.any, List.any_eq_false, decide_eq_true_eq] at h
  obtain ⟨hmem, ⟨hscope, hvms⟩, hnics⟩ := h
  refine ⟨hmem, hscope, fun hne n => ?_⟩
  rintro (⟨vm, hvm, -, hip⟩ | ⟨nic, hnic, -, hip⟩)
  · exact hvms vm hvm ⟨hip ▸ hne, hip⟩
  · exact hnics nic hnic ⟨hip ▸ hne, hip⟩

theorem foldl_further (best : NetworkRow) (rows : List NetworkRow) :
    ∃ row, rows.foldl further (some best) = some row ∧ row ∈ best :: rows ∧
      ∀ r ∈ best :: rows, r.nextIp ≤ row.nextIp := by
  induction rows generalizing best with
  | nil => exact ⟨best, rfl, List.mem_cons_self, fun r hr => by simp_all⟩
  | cons next rows ih =>
    rw [List.foldl_cons, further]
    split
    · obtain ⟨row, hrow, hmem, hmax⟩ := ih next
      refine ⟨row, hrow, List.mem_cons_of_mem best hmem, fun r hr => ?_⟩
      have hnext := hmax next List.mem_cons_self
      rcases List.mem_cons.mp hr with rfl | hr
      · omega
      · exact hmax r hr
    · obtain ⟨row, hrow, hmem, hmax⟩ := ih best
      have hbest := hmax best List.mem_cons_self
      refine ⟨row, hrow, ?_, fun r hr => ?_⟩
      · rcases List.mem_cons.mp hmem with rfl | hmem
        · exact List.mem_cons_self
        · exact List.mem_cons_of_mem best (List.mem_cons_of_mem next hmem)
      · rcases List.mem_cons.mp hr with rfl | hr
        · exact hbest
        · rcases List.mem_cons.mp hr with rfl | hr
          · omega
          · exact hmax r (List.mem_cons_of_mem best hr)

theorem furthestRow_spec (h : furthestRow d name = some row) :
    row ∈ listNetworksByName d name ∧ ∀ r ∈ listNetworksByName d name, r.nextIp ≤ row.nextIp := by
  unfold furthestRow at h
  cases hrows : listNetworksByName d name with
  | nil =>
    rw [hrows] at h
    cases h
  | cons best rows =>
    obtain ⟨row', hrow, hspec⟩ := foldl_further best rows
    rw [hrows, List.foldl_cons, further, hrow] at h
    cases h
    exact hspec

theorem furthestRow_eq_none (h : furthestRow d name = none) : listNetworksByName d name = [] := by
  unfold furthestRow at h
  cases hrows : listNetworksByName d name with
  | nil => rfl
  | cons best rows =>
    obtain ⟨row, hrow, -⟩ := foldl_further best rows
    rw [hrows, List.foldl_cons, further, hrow] at h
    cases h

theorem mem_listNetworksByName_setNextIp {k : Int} {r : NetworkRow} :
    r ∈ listNetworksByName (setNextIp n k d) name ↔
      ∃ row ∈ listNetworksByName d name, (if n = name then { row with nextIp := k } else row) = r := by
  have hrows : (setNextIp n k d).networks.rows =
      d.networks.rows.map fun row => if row.name = n then { row with nextIp := k } else row := by
    simp [setNextIp, Table.update, Table.map]
  rw [mem_listNetworksByName, hrows, List.mem_map]
  constructor
  · rintro ⟨⟨row, hrow, rfl⟩, hname⟩
    by_cases hn : row.name = n
    · rw [if_pos hn] at hname ⊢
      exact ⟨row, mem_listNetworksByName.mpr ⟨hrow, hname⟩, if_pos (hn.symm.trans hname)⟩
    · rw [if_neg hn] at hname ⊢
      exact ⟨row, mem_listNetworksByName.mpr ⟨hrow, hname⟩, if_neg fun h => hn (hname.trans h.symm)⟩
  · rintro ⟨row, hrow, rfl⟩
    obtain ⟨hmem, rfl⟩ := mem_listNetworksByName.mp hrow
    by_cases hn : n = row.name
    · rw [if_pos hn]
      exact ⟨⟨row, hmem, if_pos hn.symm⟩, rfl⟩
    · rw [if_neg hn]
      exact ⟨⟨row, hmem, if_neg fun h => hn h.symm⟩, rfl⟩

theorem NetworkRow.Covers.mono {ip : String} (h : row.Covers ip) {k : Int} (hk : row.nextIp ≤ k) :
    { row with nextIp := k }.Covers ip := by
  obtain ⟨host, hpos, hle, hlt, hip⟩ := h
  exact ⟨host, hpos, hle, lt_of_lt_of_le hlt hk, hip⟩

theorem settledIn_setNextIp {k : Int} (h : SettledIn name d)
    (hk : n = name → ∀ row ∈ listNetworksByName d name, row.nextIp ≤ k) : SettledIn name (setNextIp n k d) := by
  have hgateway : ∀ row : NetworkRow, (if n = name then { row with nextIp := k } else row).gatewayIp =
      row.gatewayIp := by
    intro row
    split <;> rfl
  refine ⟨fun r hr => ?_, fun r hr r' hr' => ?_, fun r hr ip hip => ?_⟩
  · obtain ⟨row, hrow, rfl⟩ := mem_listNetworksByName_setNextIp.mp hr
    rw [hgateway]
    exact h.parses row hrow
  · obtain ⟨row, hrow, rfl⟩ := mem_listNetworksByName_setNextIp.mp hr
    obtain ⟨row', hrow', rfl⟩ := mem_listNetworksByName_setNextIp.mp hr'
    rw [hgateway, hgateway]
    exact h.oneGateway row hrow row' hrow'
  · obtain ⟨row, hrow, -⟩ := mem_listNetworksByName_setNextIp.mp hr
    obtain ⟨row', hrow', hcov⟩ := h.covered row hrow ip hip
    refine ⟨_, mem_listNetworksByName_setNextIp.mpr ⟨row', hrow', rfl⟩, ?_⟩
    split
    · rename_i hn
      exact hcov.mono (hk hn row' hrow')
    · exact hcov

/-- A counter that stands for a host is followed by the next number. -/
theorem asI32_succ {v : Int} (hpos : 1 ≤ v) (hle : v ≤ 254) : asI32 (v + 1) = v + 1 := by
  apply asI32_of_fits
  constructor <;> omega

theorem settledIn_allocate (h : SettledIn name d) (hc : AddressAction.RespectsCounter name d (.allocate n)) :
    SettledIn name ((allocateVmIpGlobal n).exec d).2 := by
  rw [exec_allocateVmIpGlobal]
  cases hfree : (freeReleasedIps d n).argmin (·.address) with
  | some row =>
    refine Settled.mono h (fun _ => Iff.rfl) fun ip hip _ _ => .inl ?_
    rcases hip with hpool | hheld
    · exact .inl (Table.mem_erase.mp hpool).1
    · exact .inr hheld
  | none =>
    dsimp only
    cases hrow : furthestRow d n with
    | none =>
      unfold takeNextIp
      simpa [hrow] using h
    | some row =>
      rw [exec_takeNextIp hrow]
      refine settledIn_setNextIp h ?_
      rintro rfl r hr
      obtain ⟨hpos, hle, -⟩ := (hc rfl).2.resolve_left (not_not.mpr (List.argmin_eq_none.mp hfree)) row hrow
      have hmax := (furthestRow_spec hrow).2 r hr
      rw [asI32_succ hpos hle]
      omega

theorem allocatesWell_allocate (h : SettledIn name d) (hc : AddressAction.RespectsCounter name d (.allocate n)) :
    AddressAction.AllocatesWell name d (.allocate n) := by
  rintro rfl ip hip
  have hstep : AddressAction.step d (.allocate n) = ((allocateVmIpGlobal n).exec d).2 :=
    Tx.Keeps.exec_bind (f := id) (fun _ => .pure _) d
  obtain ⟨hrows, hroom⟩ := hc rfl
  obtain ⟨first, hfirst⟩ := List.exists_mem_of_ne_nil _ hrows
  rw [hstep]
  rw [exec_allocateVmIpGlobal] at hip ⊢
  cases hfree : (freeReleasedIps d n).argmin (·.address) with
  | some row =>
    rw [hfree] at hip
    obtain rfl : row.address = ip := Except.ok.inj hip
    obtain ⟨hmem, hscope, hnot⟩ := mem_freeReleasedIps (List.argmin_mem hfree)
    obtain ⟨row', hrow', hcov⟩ := h.covered first hfirst row.address (.inl (hscope ▸ hmem))
    have hne : row.address ≠ "" := by
      obtain ⟨host, -, -, -, heq, -⟩ := hcov
      rw [heq]
      exact hostAddress_ne_empty _ _
    exact ⟨hnot hne n, hrows, fun r hr => h.slash24 hr hrow' hcov, row', hrow', hcov⟩
  | none =>
    rw [hfree] at hip
    dsimp only at hip ⊢
    cases hrow : furthestRow d n with
    | none => exact absurd (furthestRow_eq_none hrow) hrows
    | some row =>
      rw [exec_takeNextIp hrow] at hip ⊢
      obtain rfl := Except.ok.inj hip
      obtain ⟨hpos, hle, hne⟩ := hroom.resolve_left (not_not.mpr (List.argmin_eq_none.mp hfree)) row hrow
      obtain ⟨hmem, hmax⟩ := furthestRow_spec hrow
      have hnext : { row with nextIp := row.nextIp + 1 }.Covers (hostAddress row.gatewayIp row.nextIp) :=
        ⟨row.nextIp, hpos, hle, Int.lt_succ _, rfl, hne⟩
      refine ⟨fun hheld => ?_, hrows, fun r hr => ?_, _, mem_listNetworksByName_setNextIp.mpr ⟨row, hmem, rfl⟩, ?_⟩
      · obtain ⟨row', hrow', host, hhost, -, hlt, heq, -⟩ :=
          h.covered row hmem _ (.inr ⟨hostAddress_ne_empty _ _, hheld⟩)
        rw [h.oneGateway row' hrow' row hmem] at heq
        have hsame := hostAddress_inj (by omega) (by omega) heq
        have := hmax row' hrow'
        omega
      · rw [h.oneGateway row hmem r hr] at hne ⊢
        exact ⟨hne, slash24_hostAddress (h.parses r hr) hpos hle⟩
      · rw [if_pos rfl, asI32_succ hpos hle]
        exact hnext

end Allocation

/-! ### VM rows -/

section Rows

variable {name n ip : String} {d d' : DomainTables}

theorem settledIn_hold (h : SettledIn name d) (hnet : d'.networks = d.networks)
    (hmay : n = name → AddressAction.MayHold d name ip)
    (hheld : ∀ m i, InUse d' m i → InUse d m i ∨ (m = n ∧ i = ip ∧ i ≠ "")) : SettledIn name d' := by
  refine Settled.mono h (fun _ => by unfold listNetworksByName; rw [hnet]) fun i hi row hrow => ?_
  rcases hheld name i hi with hold | ⟨rfl, rfl, hne⟩
  · exact .inl hold
  · exact .inr (hmay rfl hne row hrow)

theorem settledIn_insertVm {vm : VmRow} (h : SettledIn name d)
    (hc : AddressAction.RespectsCounter name d (.insertVm vm)) : SettledIn name ((insertVm vm).exec d).2 := by
  have hput : SettledIn name { d with vms := d.vms.put vm } := by
    refine settledIn_hold h rfl hc fun m i hi => ?_
    rcases hi with hpool | ⟨hne, ⟨vm', hvm', hnet, hip⟩ | hnic⟩
    · exact .inl (.inl hpool)
    · rcases Table.mem_put.mp hvm' with rfl | ⟨hvm', -⟩
      · exact .inr ⟨hnet.symm, hip.symm, hne⟩
      · exact .inl (.inr ⟨hne, .inl ⟨vm', hvm', hnet, hip⟩⟩)
    · exact .inl (.inr ⟨hne, .inr hnic⟩)
  unfold insertVm upsertVm
  cases hthere : d.vms.has vm.id with
  | true => simpa [hthere] using h
  | false =>
    cases hnode : d.nodes.has vm.nodeId with
    | true => simpa [hthere, hnode] using hput
    | false => simpa [hthere, hnode] using h

theorem settledIn_insertVmNic {nic : VmNicRow} (h : SettledIn name d)
    (hc : AddressAction.RespectsCounter name d (.insertVmNic nic)) : SettledIn name ((insertVmNic nic).exec d).2 := by
  have hput : SettledIn name { d with vmNics := d.vmNics.put nic } := by
    refine settledIn_hold h rfl hc fun m i hi => ?_
    rcases hi with hpool | ⟨hne, hvm | ⟨nic', hnic', hnet, hip⟩⟩
    · exact .inl (.inl hpool)
    · exact .inl (.inr ⟨hne, .inl hvm⟩)
    · rcases Table.mem_put.mp hnic' with rfl | ⟨hnic', -⟩
      · exact .inr ⟨hnet.symm, hip.symm, hne⟩
      · exact .inl (.inr ⟨hne, .inr ⟨nic', hnic', hnet, hip⟩⟩)
  unfold insertVmNic insertVmNics insertVmNics requireVm
  cases hthere : d.vmNics.has (nic.vmId, nic.position) with
  | true => simpa [hthere] using h
  | false =>
    cases hvm : d.vms.has nic.vmId with
    | true => simpa [hthere, hvm] using hput
    | false => simpa [hthere, hvm] using h

structure Releases (d d' : DomainTables) : Prop where
  networks : d'.networks = d.networks
  vms : d'.vms = d.vms
  vmNics : d'.vmNics = d.vmNics
  pool : ∀ n ip, ⟨n, ip⟩ ∈ d'.vxlanReleasedIps.rows → InUse d n ip

theorem Releases.refl (d : DomainTables) : Releases d d := ⟨rfl, rfl, rfl, fun _ _ h => .inl h⟩

theorem Releases.releaseVxlanIp (h : Releases d d') (nodeId : String) (hheld : HoldsIp d n ip) :
    Releases d (releaseVxlanIp nodeId n ip d') := by
  unfold Kcore.releaseVxlanIp
  split
  · exact h
  · rename_i hblank
    cases d'.networks.get (n, nodeId) with
    | none => exact h
    | some net =>
      dsimp only
      split
      · exact h
      · refine ⟨h.networks, h.vms, h.vmNics, fun m i hi => ?_⟩
        rcases Table.mem_put.mp hi with heq | ⟨hi, -⟩
        · cases heq
          have hne : ip ≠ "" := fun hempty => hblank (by rw [hempty]; decide)
          exact .inr ⟨hne, hheld⟩
        · exact h.pool m i hi

theorem Releases.releaseIpv6 (h : Releases d d') (nodeId n address : String) :
    Releases d (releaseIpv6 nodeId n address d') := by
  unfold Kcore.releaseIpv6
  split
  · exact h
  · split
    · exact h
    · split
      · exact h
      · exact ⟨h.networks, h.vms, h.vmNics, h.pool⟩

theorem Releases.foldl {α : Type} {l : List α} {f : DomainTables → α → DomainTables}
    (hf : ∀ a ∈ l, ∀ d', Releases d d' → Releases d (f d' a)) (h : Releases d d') : Releases d (l.foldl f d') := by
  induction l generalizing d' with
  | nil => exact h
  | cons a l ih =>
    exact ih (fun b hb => hf b (List.mem_cons_of_mem a hb)) (hf a List.mem_cons_self d' h)

theorem Releases.releaseVmAddresses (h : Releases d d') {vm : VmRow} (hvm : vm ∈ d.vms.rows) :
    Releases d (releaseVmAddresses vm d') := by
  have hprimary := h.releaseVxlanIp vm.nodeId (.inl ⟨vm, hvm, rfl, rfl⟩)
  unfold Kcore.releaseVmAddresses
  refine Releases.foldl (fun row _ d'' h'' => h''.releaseIpv6 _ _ _)
    (Releases.foldl (fun nic hnic d'' h'' => ?_) hprimary)
  have hmem := (List.mem_filter.mp hnic).1
  rw [hprimary.vmNics] at hmem
  exact h''.releaseVxlanIp _ (.inr ⟨nic, hmem, rfl, rfl⟩)

theorem settledIn_deleteVm (h : SettledIn name d) (idOrName : String) :
    SettledIn name ((deleteVmByIdOrName idOrName).exec d).2 := by
  have hremoved : SettledIn name (removeVms (VmRow.named idOrName)
      ((d.vms.rows.filter (VmRow.named idOrName)).foldl (fun d vm => releaseVmAddresses vm d) d)) := by
    have hrel : Releases d ((d.vms.rows.filter (VmRow.named idOrName)).foldl (fun d vm => releaseVmAddresses vm d) d) :=
      Releases.foldl (fun vm hvm d' h' => h'.releaseVmAddresses (List.mem_filter.mp hvm).1) (.refl d)
    refine Settled.mono h (fun _ => ?_) fun ip hip _ _ => .inl ?_
    · unfold listNetworksByName removeVms
      rw [hrel.networks]
    · rcases hip with hpool | ⟨hne, ⟨vm, hvm, hnet, hip⟩ | ⟨nic, hnic, hnet, hip⟩⟩
      · exact hrel.pool name ip hpool
      · have hvm := (List.mem_filter.mp hvm).1
        rw [hrel.vms] at hvm
        exact .inr ⟨hne, .inl ⟨vm, hvm, hnet, hip⟩⟩
      · have hnic := (List.mem_filter.mp hnic).1
        rw [hrel.vmNics] at hnic
        exact .inr ⟨hne, .inr ⟨nic, hnic, hnet, hip⟩⟩
  unfold deleteVmByIdOrName
  rw [Tx.exec_read_bind]
  by_cases hfound : (d.vms.rows.filter (VmRow.named idOrName)).isEmpty
  · simpa [hfound] using h
  · simpa [hfound, Tx.exec_map] using hremoved

end Rows

/-! ### Runs -/

theorem settledIn_step {name : String} {d : DomainTables} {a : AddressAction} (h : SettledIn name d)
    (hc : a.RespectsCounter name d) : SettledIn name (AddressAction.step d a) := by
  cases a with
  | createNetwork req => exact settledIn_createNetwork h hc
  | materializeNetwork c => exact settledIn_applyNetworkCreate h hc
  | allocate n =>
    refine (settledIn_congr (Tx.Keeps.exec_bind (fun _ => .pure _) d) name).mpr ?_
    exact settledIn_allocate h hc
  | insertVm vm => exact settledIn_insertVm h hc
  | insertVmNic nic => exact settledIn_insertVmNic h hc
  | deleteVm idOrName =>
    refine (settledIn_congr (Tx.Keeps.exec_bind (fun _ => .pure _) d) name).mpr ?_
    exact settledIn_deleteVm h idOrName
  | deleteNetwork nodeId raw => exact settledIn_requestNetworkDeletion h hc

/-- **Overlay addresses are unique.** Every address that is allocated on the network is one that no VM and no interface
of it holds, is no gateway of it, and is a host address of its /24, in a run whose steps respect the counter. -/
theorem allocated_addresses_unique {name : String} {d : DomainTables} {acts : List AddressAction}
    (hd : SettledIn name d)
    (hacts : Each AddressAction.step (AddressAction.RespectsCounter name) d acts) :
    Each AddressAction.step (AddressAction.AllocatesWell name) d acts := by
  have hsettled := along_of_each hd (fun d a => settledIn_step) hacts
  refine (hsettled.each.and hacts).mono fun d a h => ?_
  cases a with
  | allocate n => exact allocatesWell_allocate h.1 h.2
  | _ => trivial

def oneHost : DomainTables := { DomainTables.empty with nodes := Table.empty.put (placeholderNode "node-a") }

def overlayRequest : CreateNetworkRequest where
  name := "overlay"
  externalIp := "0.0.0.0"
  gatewayIp := "10.50.0.1"
  internalNetmask := ""
  nodeId := "node-a"
  networkType := "vxlan"
  enableOutboundNat := false
  allowedTcpPorts := []
  allowedUdpPorts := []
  vlanId := 0
  policy := none

def overlayVm (id vmIp : String) : VmRow := { VmRow.sample id with network := "overlay", vmIp }

/-- The address of the first VM is not given to the second one. -/
theorem first_overlay_address_unique :
    Each AddressAction.step (AddressAction.AllocatesWell "overlay") oneHost
      [.createNetwork overlayRequest, .allocate "overlay", .insertVm (overlayVm "vm-1" "10.50.0.2"),
        .allocate "overlay"] := by
  have hnone : ∀ ip, ¬ InUse oneHost "overlay" ip := by
    rintro ip (hpool | ⟨-, ⟨vm, hvm, -⟩ | ⟨nic, hnic, -⟩⟩)
    · exact absurd hpool List.not_mem_nil
    · exact absurd hvm List.not_mem_nil
    · exact absurd hnic List.not_mem_nil
  refine allocated_addresses_unique ⟨fun row h => ?_, fun row h => ?_, fun row h => ?_⟩ ⟨?_, ?_, ?_, ?_, trivial⟩
  · exact absurd h List.not_mem_nil
  · exact absurd h List.not_mem_nil
  · exact absurd h List.not_mem_nil
  · intro row hcheck _ _
    obtain rfl := Except.ok.inj hcheck
    refine ⟨?_, ?_, fun _ _ ip hip => absurd hip (hnone ip)⟩
    · intro row hrow
      obtain rfl := List.mem_singleton.mp hrow
      decide
    · intro row hrow row' hrow'
      rw [List.mem_singleton.mp hrow, List.mem_singleton.mp hrow']
  · intro _
    refine ⟨List.cons_ne_nil _ _, .inr fun row hrow => ?_⟩
    obtain rfl := Option.some.inj hrow
    decide
  · intro _ _ row hrow
    obtain rfl := List.mem_singleton.mp hrow
    exact ⟨_, hrow, 2, by decide⟩
  · intro _
    refine ⟨List.cons_ne_nil _ _, .inr fun row hrow => ?_⟩
    obtain rfl := Option.some.inj hrow
    decide

/-- The network is created, used by one VM, emptied, deleted and created again; the first address it then hands
out was released before the deletion, and the second one is the first that the new row counts. -/
theorem recreated_overlay_repeats_address :
    ¬ Each AddressAction.step (AddressAction.AllocatesWell "overlay") oneHost
      [.createNetwork overlayRequest, .allocate "overlay", .insertVm (overlayVm "vm-1" "10.50.0.2"), .deleteVm "vm-1",
        .deleteNetwork "node-a" "overlay", .createNetwork overlayRequest, .allocate "overlay",
        .insertVm (overlayVm "vm-2" "10.50.0.2"), .allocate "overlay"] := by
  rintro ⟨-, -, -, -, -, -, -, -, hlast, -⟩
  have hreturn := hlast rfl "10.50.0.2" (by decide)
  exact hreturn.1 (.inl ⟨overlayVm "vm-2" "10.50.0.2", by decide, rfl, rfl⟩)

end Kcore
