import Kcore.Lib.Table
import Kcore.Slurm.Spec

/-!
# The addresses of the members of a Slurm cluster

`members` collects the nodes of a cluster from the roles of its spec, where later roles overwrite what earlier ones have
stored, and the renderer takes the addresses partly from the members and partly from the spec. They agree exactly if the
entries of one node have one address, and the accounting node is not one that only the accounting names
(`addresses_agree_iff`).
-/

namespace Kcore.Slurm

open Keyed

/-! ### The members -/

structure Member where
  nodeId : String
  address : String
  iface : String
  roles : List String
  compute : Option SlurmComputeSpec

abbrev Members := Table Member.nodeId

abbrev Lookup := String → Option (String × String)

def Member.addRole (role : String) (m : Member) : Member :=
  if role ∈ m.roles then m else { m with roles := m.roles ++ [role] }

def upsert (out : Members) (fresh : Member) (change : Member → Member) : Members :=
  out.put (change ((out.get fresh.nodeId).getD fresh))

def addLogin (spec : SlurmClusterSpec) (lookup : Lookup) (out : Members) (nodeId : String) : Members :=
  let found := (lookup nodeId).getD ("", spec.controller.iface)
  upsert out ⟨nodeId, found.1, found.2, [], none⟩ (Member.addRole "login")

def Member.setCompute (compute : SlurmComputeSpec) (m : Member) : Member :=
  { m with address := compute.address, iface := compute.iface, compute := some compute }.addRole "compute"

def addCompute (out : Members) (compute : SlurmComputeSpec) : Members :=
  upsert out ⟨compute.nodeId, compute.address, compute.iface, [], none⟩ (Member.setCompute compute)

def accountingNodeId (spec : SlurmClusterSpec) : String :=
  if trim spec.accounting.nodeId = "" then spec.controller.nodeId else spec.accounting.nodeId

def addController (out : Members) (controller : SlurmControllerSpec) : Members :=
  out.put ⟨controller.nodeId, controller.address, controller.iface, ["controller"], none⟩

def members (spec : SlurmClusterSpec) (lookup : Lookup) : Members :=
  let out := (spec.controller :: spec.backupController.toList).foldl addController .empty
  let out := spec.login.foldl (addLogin spec lookup) out
  let out := spec.compute.foldl addCompute out
  if spec.accounting.enabled then
    upsert out ⟨accountingNodeId spec, spec.controller.address, spec.controller.iface, [], none⟩ (Member.addRole "dbd")
  else out

/-! ### What is rendered -/

/-- The lines of `slurm.conf` that have addresses: those of the backup controller, of the accounting host and of the
compute nodes. -/
structure SlurmConf where
  backup : Option (String × String)
  accountingStorageHost : Option String
  nodes : List (String × String)

def renderSlurmConf (spec : SlurmClusterSpec) (members : Members) : SlurmConf where
  backup := spec.backupController.map fun backup => (backup.nodeId, backup.address)
  accountingStorageHost :=
    if spec.accounting.enabled then
      ((members.get (accountingNodeId spec)).map (·.address)).filter (· ≠ "")
    else none
  nodes := members.rows.filterMap fun m => m.compute.map fun compute => (compute.nodeId, compute.address)

structure Fragment where
  nodeId : String
  nodeAddress : String
  controlMachine : String
  controlAddr : String
  backupControl : Option (String × String)
  memberAddresses : List String
  memberHosts : List (String × String)
  slurmConf : SlurmConf
  accountingNode : String

def renderNodeFragment (spec : SlurmClusterSpec) (member : Member) (members : Members) : Fragment where
  nodeId := member.nodeId
  nodeAddress := member.address
  controlMachine := spec.controller.nodeId
  controlAddr := spec.controller.address
  backupControl := spec.backupController.map fun backup => (backup.nodeId, backup.address)
  memberAddresses := members.rows.map (·.address)
  memberHosts := members.rows.map fun m => (m.nodeId, m.address)
  slurmConf := renderSlurmConf spec members
  accountingNode := accountingNodeId spec

def Fragment.mentions (f : Fragment) : List (String × String) :=
  (f.nodeId, f.nodeAddress) :: (f.controlMachine, f.controlAddr) :: (f.backupControl.toList ++
    (f.memberHosts.map Prod.fst).zip f.memberAddresses ++ f.memberHosts ++ f.slurmConf.backup.toList ++
    (f.slurmConf.accountingStorageHost.map fun address => (f.accountingNode, address)).toList ++ f.slurmConf.nodes)

/-! ### What is asked for -/

def entries (spec : SlurmClusterSpec) : List (String × String) :=
  ((spec.controller :: spec.backupController.toList).map fun c => (c.nodeId, c.address)) ++
    spec.compute.map fun c => (c.nodeId, c.address)

def named (spec : SlurmClusterSpec) : List String :=
  (entries spec).map Prod.fst ++ spec.login ++
    if trim spec.accounting.nodeId = "" then [] else [spec.accounting.nodeId]

def lookupAddress (lookup : Lookup) (nodeId : String) : String := ((lookup nodeId).map Prod.fst).getD ""

structure Own (spec : SlurmClusterSpec) (lookup : Lookup) (nodeId address : String) : Prop where
  entry : ∀ e ∈ entries spec, e.1 = nodeId → e.2 = address
  registered : nodeId ∉ (entries spec).map Prod.fst → address = lookupAddress lookup nodeId

structure AddressesAgree (spec : SlurmClusterSpec) (lookup : Lookup) : Prop where
  complete : ∀ nodeId, (members spec lookup).has nodeId = true ↔ nodeId ∈ named spec
  own : ∀ m ∈ (members spec lookup).rows, Own spec lookup m.nodeId m.address
  mentions : ∀ m ∈ (members spec lookup).rows, ∀ p ∈ (renderNodeFragment spec m (members spec lookup)).mentions,
    Own spec lookup p.1 p.2

/-! ### The table of the members -/

section Table

variable {out : Members} {fresh m : Member} {change : Member → Member} {nodeId : String}

theorem nodeId_entry (out : Members) (fresh : Member) : ((out.get fresh.nodeId).getD fresh).nodeId = fresh.nodeId := by
  cases h : out.get fresh.nodeId with
  | none => rfl
  | some m => exact Table.key_of_get h

theorem has_put : (out.put m).has nodeId = true ↔ nodeId = m.nodeId ∨ out.has nodeId = true := by
  unfold Table.has
  rw [Table.get_put]
  split
  · exact ⟨fun _ => .inl (Eq.symm ‹_›), fun _ => rfl⟩
  · exact ⟨.inr, fun h => h.resolve_left fun heq => absurd heq.symm ‹_›⟩

variable (hchange : ∀ m, (change m).nodeId = m.nodeId)

include hchange

theorem has_upsert : (upsert out fresh change).has nodeId = true ↔ nodeId = fresh.nodeId ∨ out.has nodeId = true := by
  rw [upsert, has_put, hchange, nodeId_entry]

theorem mem_upsert (h : m ∈ (upsert out fresh change).rows) :
    m = change ((out.get fresh.nodeId).getD fresh) ∨ m ∈ out.rows ∧ m.nodeId ≠ fresh.nodeId := by
  refine (Table.mem_put.mp h).imp_right fun hm => ⟨hm.1, ?_⟩
  rw [← nodeId_entry out fresh, ← hchange ((out.get fresh.nodeId).getD fresh)]
  exact hm.2

end Table

theorem addRole_spec (role : String) (m : Member) : (m.addRole role).nodeId = m.nodeId ∧
    (m.addRole role).address = m.address ∧ (m.addRole role).compute = m.compute := by
  unfold Member.addRole
  split <;> exact ⟨rfl, rfl, rfl⟩

theorem setCompute_spec (c : SlurmComputeSpec) (m : Member) : (m.setCompute c).nodeId = m.nodeId ∧
    (m.setCompute c).address = c.address ∧ (m.setCompute c).compute = some c :=
  addRole_spec "compute" { m with address := c.address, iface := c.iface, compute := some c }

theorem has_foldl {β : Type} {f : Members → β → Members} {key : β → String}
    (hf : ∀ out b nodeId, (f out b).has nodeId = true ↔ nodeId = key b ∨ out.has nodeId = true) (l : List β)
    (out : Members) (nodeId : String) :
    (l.foldl f out).has nodeId = true ↔ nodeId ∈ l.map key ∨ out.has nodeId = true := by
  induction l generalizing out with
  | nil => simp
  | cons b l ih => rw [List.foldl_cons, ih, hf, List.map_cons, List.mem_cons, or_assoc, or_left_comm]

section Members

variable {spec : SlurmClusterSpec} {lookup : Lookup} {out : Members}

theorem has_addLogin (out : Members) (b nodeId : String) :
    (addLogin spec lookup out b).has nodeId = true ↔ nodeId = b ∨ out.has nodeId = true :=
  has_upsert fun m => (addRole_spec "login" m).1

theorem has_addCompute (out : Members) (compute : SlurmComputeSpec) (nodeId : String) :
    (addCompute out compute).has nodeId = true ↔ nodeId = compute.nodeId ∨ out.has nodeId = true :=
  has_upsert fun m => (setCompute_spec compute m).1

theorem has_addController (out : Members) (controller : SlurmControllerSpec) (nodeId : String) :
    (addController out controller).has nodeId = true ↔ nodeId = controller.nodeId ∨ out.has nodeId = true := has_put

def roleMembers (spec : SlurmClusterSpec) (lookup : Lookup) : Members :=
  spec.compute.foldl addCompute (spec.login.foldl (addLogin spec lookup)
    ((spec.controller :: spec.backupController.toList).foldl addController .empty))

theorem has_roleMembers (nodeId : String) :
    (roleMembers spec lookup).has nodeId = true ↔ nodeId ∈ (entries spec).map Prod.fst ++ spec.login := by
  have hempty : (Table.empty : Members).has nodeId = false := rfl
  rw [roleMembers, has_foldl has_addCompute, has_foldl has_addLogin, has_foldl has_addController, hempty]
  simp only [entries, List.map_append, List.map_map, List.mem_append, Function.comp_def, List.map_id',
    Bool.false_eq_true, or_false]
  tauto

theorem members_eq (spec : SlurmClusterSpec) (lookup : Lookup) : members spec lookup =
    if spec.accounting.enabled then
      upsert (roleMembers spec lookup)
        ⟨accountingNodeId spec, spec.controller.address, spec.controller.iface, [], none⟩ (Member.addRole "dbd")
    else roleMembers spec lookup := rfl

theorem has_members (nodeId : String) : (members spec lookup).has nodeId = true ↔
    nodeId ∈ (entries spec).map Prod.fst ++ spec.login ∨
      spec.accounting.enabled = true ∧ nodeId = accountingNodeId spec := by
  rw [← has_roleMembers]
  by_cases henabled : spec.accounting.enabled = true
  · rw [members_eq, if_pos henabled, has_upsert fun m => (addRole_spec "dbd" m).1, or_comm]
    dsimp only
    exact or_congr_right ⟨fun h => ⟨henabled, h⟩, And.right⟩
  · rw [members_eq, if_neg henabled]
    exact (or_iff_left fun h => henabled h.1).symm

/-! ### The addresses -/

variable (hentries : ∀ e ∈ entries spec, ∀ e' ∈ entries spec, e.1 = e'.1 → e.2 = e'.2)

/-- The members have their own addresses, those of `todo` apart, and the compute entries are from the spec. -/
def Fits (spec : SlurmClusterSpec) (lookup : Lookup) (todo : List SlurmComputeSpec) (out : Members) : Prop :=
  ∀ m ∈ out.rows, (m.nodeId ∉ todo.map (·.nodeId) → Own spec lookup m.nodeId m.address) ∧
    ∀ c, m.compute = some c → c ∈ spec.compute

include hentries in
theorem own_of_entry {e : String × String} (he : e ∈ entries spec) : Own spec lookup e.1 e.2 :=
  ⟨fun e' he' heq => hentries e' he' e he heq, fun hnot => absurd (List.mem_map_of_mem he) hnot⟩

theorem compute_mem_entries {c : SlurmComputeSpec} (hc : c ∈ spec.compute) : (c.nodeId, c.address) ∈ entries spec :=
  List.mem_append_right _ (List.mem_map_of_mem hc)

theorem controller_mem_entries {c : SlurmControllerSpec} (hc : c ∈ spec.controller :: spec.backupController.toList) :
    (c.nodeId, c.address) ∈ entries spec :=
  List.mem_append_left _ (List.mem_map_of_mem hc)

include hentries in
theorem fits_controllers : Fits spec lookup spec.compute
    ((spec.controller :: spec.backupController.toList).foldl addController .empty) := by
  refine List.foldlRecOn _ _ (fun m hm => nomatch hm) fun out hout c hc m hm => ?_
  rcases Table.mem_put.mp hm with rfl | ⟨hm, -⟩
  · exact ⟨fun _ => own_of_entry hentries (controller_mem_entries hc), fun c hc => nomatch hc⟩
  · exact hout m hm

theorem Fits.addRole {todo : List SlurmComputeSpec} {fresh : Member} {role : String} (h : Fits spec lookup todo out)
    (hnone : fresh.compute = none) (hown : out.has fresh.nodeId = false → fresh.nodeId ∉ todo.map (·.nodeId) →
      Own spec lookup fresh.nodeId fresh.address) : Fits spec lookup todo (upsert out fresh (Member.addRole role)) := by
  intro m hm
  rcases mem_upsert (fun m => (addRole_spec role m).1) hm with rfl | ⟨hm, -⟩
  · obtain ⟨hid, haddress, hcompute⟩ := addRole_spec role ((out.get fresh.nodeId).getD fresh)
    rw [hid, haddress, hcompute]
    cases hget : out.get fresh.nodeId with
    | some m => exact h m (Table.mem_of_get hget)
    | none =>
      refine ⟨hown (by rw [Table.has, hget]; rfl), fun c hc => ?_⟩
      exact nomatch hnone.symm.trans hc
  · exact h m hm

theorem fits_logins (h : Fits spec lookup spec.compute out)
    (hhas : ∀ c ∈ spec.controller :: spec.backupController.toList, out.has c.nodeId = true) :
    Fits spec lookup spec.compute (spec.login.foldl (addLogin spec lookup) out) := by
  refine (List.foldlRecOn (motive := fun out => Fits spec lookup spec.compute out ∧
    ∀ c ∈ spec.controller :: spec.backupController.toList, out.has c.nodeId = true) _ _ ⟨h, hhas⟩ ?_).1
  rintro out ⟨hout, hhas⟩ nodeId -
  refine ⟨hout.addRole rfl fun hnew hcompute => ?_, fun c hc => (has_addLogin out nodeId _).mpr (.inr (hhas c hc))⟩
  have hnot : nodeId ∉ (entries spec).map Prod.fst := by
    intro hmem
    obtain ⟨e, he, rfl⟩ := List.mem_map.mp hmem
    rcases List.mem_append.mp he with he | he <;> obtain ⟨c, hc, rfl⟩ := List.mem_map.mp he
    · exact absurd (hhas c hc) (by rw [hnew]; exact nofun)
    · exact hcompute (List.mem_map_of_mem hc)
  refine ⟨fun e he heq => absurd (List.mem_map.mpr ⟨e, he, heq⟩) hnot, fun _ => ?_⟩
  unfold lookupAddress
  cases lookup nodeId <;> rfl

include hentries in
theorem fits_compute {todo : List SlurmComputeSpec} (hsub : todo ⊆ spec.compute) (h : Fits spec lookup todo out) :
    Fits spec lookup [] (todo.foldl addCompute out) := by
  induction todo generalizing out with
  | nil => exact h
  | cons c rest ih =>
    refine ih (fun d hd => hsub (List.mem_cons_of_mem _ hd)) fun m hm => ?_
    have hc : c ∈ spec.compute := hsub List.mem_cons_self
    rcases mem_upsert (fun m => (setCompute_spec c m).1) hm with rfl | ⟨hm, hne⟩
    · have hnode := nodeId_entry out ⟨c.nodeId, c.address, c.iface, [], none⟩
      obtain ⟨hid, haddress, hcompute⟩ :=
        setCompute_spec c ((out.get c.nodeId).getD ⟨c.nodeId, c.address, c.iface, [], none⟩)
      rw [hid, haddress, hcompute, hnode]
      exact ⟨fun _ => own_of_entry hentries (compute_mem_entries hc), fun d hd => Option.some.inj hd ▸ hc⟩
    · refine ⟨fun hnot => (h m hm).1 fun hmem => ?_, (h m hm).2⟩
      rcases List.mem_cons.mp hmem with heq | hmem
      · exact hne heq
      · exact hnot hmem

include hentries in
theorem fits_roleMembers : Fits spec lookup [] (roleMembers spec lookup) := by
  refine fits_compute hentries (fun c hc => hc) (fits_logins (fits_controllers hentries) fun c hc => ?_)
  exact (has_foldl has_addController _ _ _).mpr (.inl (List.mem_map_of_mem hc))

/-- What is asked of the accounting node: it has another role, or the address of the controller. -/
def AccountingFits (spec : SlurmClusterSpec) (lookup : Lookup) : Prop :=
  trim spec.accounting.nodeId ≠ "" → spec.accounting.nodeId ∈ (entries spec).map Prod.fst ++ spec.login ∨
    spec.accounting.enabled = true ∧ lookupAddress lookup spec.accounting.nodeId = spec.controller.address

include hentries in
theorem fits_members (haccounting : AccountingFits spec lookup) : Fits spec lookup [] (members spec lookup) := by
  have hroles : Fits spec lookup [] (roleMembers spec lookup) := fits_roleMembers hentries
  by_cases henabled : spec.accounting.enabled = true
  · rw [members_eq, if_pos henabled]
    refine hroles.addRole rfl fun hnew _ => ?_
    have hnot : accountingNodeId spec ∉ (entries spec).map Prod.fst ++ spec.login := by
      intro hmem
      have hhas : (roleMembers spec lookup).has (accountingNodeId spec) = true := (has_roleMembers _).mpr hmem
      dsimp only at hnew
      rw [hhas] at hnew
      cases hnew
    have hid : accountingNodeId spec = spec.accounting.nodeId ∧ trim spec.accounting.nodeId ≠ "" := by
      unfold accountingNodeId at hnot ⊢
      split
      · rename_i hblank
        rw [if_pos hblank] at hnot
        exact absurd (List.mem_append_left _ List.mem_cons_self) hnot
      · exact ⟨rfl, ‹_›⟩
    rw [hid.1] at hnot
    have hnode : spec.accounting.nodeId ∉ (entries spec).map Prod.fst := fun hmem => hnot (List.mem_append_left _ hmem)
    have hsame := ((haccounting hid.2).resolve_left hnot).2
    dsimp only
    rw [hid.1]
    exact ⟨fun e he heq => absurd (List.mem_map.mpr ⟨e, he, heq⟩) hnode, fun _ => hsame.symm⟩
  · rw [members_eq, if_neg henabled]
    exact hroles

end Members

/-! ### The fragments -/

section Fragments

variable {spec : SlurmClusterSpec} {lookup : Lookup} {m : Member} {out : Members} {p : String × String}

theorem accountingHost_eq {address : String} (h : (renderSlurmConf spec out).accountingStorageHost = some address) :
    ∃ m ∈ out.rows, (accountingNodeId spec, address) = (m.nodeId, m.address) := by
  unfold renderSlurmConf at h
  dsimp only at h
  split at h
  · obtain ⟨m, hget, rfl⟩ := Option.map_eq_some_iff.mp (Option.filter_eq_some_iff.mp h).1
    have hid : m.nodeId = accountingNodeId spec := Table.key_of_get hget
    exact ⟨m, Table.mem_of_get hget, by rw [hid]⟩
  · cases h

theorem mem_mentions (hm : m ∈ out.rows) (hcompute : ∀ m ∈ out.rows, ∀ c, m.compute = some c → c ∈ spec.compute)
    (hp : p ∈ (renderNodeFragment spec m out).mentions) :
    p ∈ entries spec ∨ ∃ m ∈ out.rows, p = (m.nodeId, m.address) := by
  have hbackup : ∀ q ∈ (spec.backupController.map fun b => (b.nodeId, b.address)).toList, q ∈ entries spec := by
    intro q hq
    obtain ⟨b, hb, rfl⟩ := Option.map_eq_some_iff.mp (Option.mem_toList.mp hq)
    exact controller_mem_entries (List.mem_cons_of_mem _ (Option.mem_toList.mpr hb))
  have hmembers : ∀ q ∈ out.rows.map fun m => (m.nodeId, m.address), ∃ m ∈ out.rows, q = (m.nodeId, m.address) := by
    intro q hq
    obtain ⟨m, hm, rfl⟩ := List.mem_map.mp hq
    exact ⟨m, hm, rfl⟩
  have hzip : ((out.rows.map fun m => (m.nodeId, m.address)).map Prod.fst).zip (out.rows.map (·.address)) =
      out.rows.map fun m => (m.nodeId, m.address) := by
    rw [List.map_map, List.zip_map']
    rfl
  simp only [Fragment.mentions, renderNodeFragment, hzip, List.mem_cons, List.mem_append] at hp
  rcases hp with rfl | rfl | ((((hp | hp) | hp) | hp) | hp) | hp
  · exact .inr ⟨m, hm, rfl⟩
  · exact .inl (controller_mem_entries List.mem_cons_self)
  · exact .inl (hbackup p hp)
  · exact .inr (hmembers p hp)
  · exact .inr (hmembers p hp)
  · exact .inl (hbackup p hp)
  · obtain ⟨address, haddress, rfl⟩ := Option.map_eq_some_iff.mp (Option.mem_toList.mp hp)
    exact .inr (accountingHost_eq haddress)
  · obtain ⟨m, hm, hmap⟩ := List.mem_filterMap.mp hp
    obtain ⟨c, hc, rfl⟩ := Option.map_eq_some_iff.mp hmap
    exact .inl (compute_mem_entries (hcompute m hm c hc))

end Fragments

theorem has_iff_named {spec : SlurmClusterSpec} {lookup : Lookup} (haccounting : AccountingFits spec lookup)
    (nodeId : String) : nodeId ∈ (entries spec).map Prod.fst ++ spec.login ∨
      spec.accounting.enabled = true ∧ nodeId = accountingNodeId spec ↔ nodeId ∈ named spec := by
  have hcontroller : spec.controller.nodeId ∈ (entries spec).map Prod.fst ++ spec.login :=
    List.mem_append_left _ List.mem_cons_self
  unfold AccountingFits at haccounting
  unfold named accountingNodeId
  generalize (entries spec).map Prod.fst ++ spec.login = others at *
  rw [List.mem_append]
  by_cases hblank : trim spec.accounting.nodeId = ""
  · rw [if_pos hblank, if_pos hblank]
    exact or_congr_right' fun hnot => ⟨fun h => absurd (h.2 ▸ hcontroller) hnot, fun h => nomatch h⟩
  · rw [if_neg hblank, if_neg hblank, List.mem_singleton]
    refine or_congr_right' fun hnot => ⟨And.right, fun h => ⟨?_, h⟩⟩
    exact ((haccounting hblank).resolve_left (h ▸ hnot)).1

theorem accounting_address {spec : SlurmClusterSpec} {lookup : Lookup} {m : Member}
    (henabled : spec.accounting.enabled = true) (hm : m ∈ (members spec lookup).rows)
    (hid : m.nodeId = accountingNodeId spec)
    (hnot : accountingNodeId spec ∉ (entries spec).map Prod.fst ++ spec.login) :
    m.address = spec.controller.address := by
  have hnone : (roleMembers spec lookup).get (accountingNodeId spec) = none := by
    have hhas : ¬(roleMembers spec lookup).has (accountingNodeId spec) = true := mt (has_roleMembers _).mp hnot
    exact Option.not_isSome_iff_eq_none.mp hhas
  rw [members_eq, if_pos henabled] at hm
  rcases mem_upsert (fun m => (addRole_spec "dbd" m).1) hm with rfl | ⟨-, hne⟩
  · rw [(addRole_spec "dbd" _).2.1]
    dsimp only
    rw [hnone]
    rfl
  · dsimp only at hne
    exact absurd hid hne

section Agree

variable {spec : SlurmClusterSpec} {lookup : Lookup} (h : AddressesAgree spec lookup)

include h

theorem AddressesAgree.exists_member {nodeId : String} (hnamed : nodeId ∈ named spec) :
    ∃ m ∈ (members spec lookup).rows, m.nodeId = nodeId := by
  obtain ⟨m, hget⟩ := Option.isSome_iff_exists.mp ((h.complete nodeId).mpr hnamed)
  exact ⟨m, Table.mem_of_get hget, Table.key_of_get hget⟩

theorem AddressesAgree.entries_agree : ∀ e ∈ entries spec, ∀ e' ∈ entries spec, e.1 = e'.1 → e.2 = e'.2 := by
  intro e he e' he' heq
  have hnamed : e.1 ∈ named spec := List.mem_append_left _ (List.mem_append_left _ (List.mem_map_of_mem he))
  obtain ⟨m, hm, hid⟩ := h.exists_member hnamed
  have hown := h.own m hm
  exact (hown.entry e he hid.symm).trans (hown.entry e' he' (heq.symm.trans hid.symm)).symm

theorem AddressesAgree.accountingFits : AccountingFits spec lookup := by
  intro hblank
  by_cases hother : spec.accounting.nodeId ∈ (entries spec).map Prod.fst ++ spec.login
  · exact .inl hother
  right
  have hid : accountingNodeId spec = spec.accounting.nodeId := if_neg hblank
  have hnamed : spec.accounting.nodeId ∈ named spec :=
    List.mem_append_right _ (by rw [if_neg hblank]; exact List.mem_cons_self)
  have henabled := (((has_members _).mp ((h.complete _).mpr hnamed)).resolve_left hother).1
  -- the node is a member only by the accounting
  obtain ⟨m, hm, hmid⟩ := h.exists_member hnamed
  have haddress := accounting_address henabled hm (hmid.trans hid.symm) (hid ▸ hother)
  have hregistered := (h.own m hm).registered fun hmem => hother (List.mem_append_left _ (hmid ▸ hmem))
  rw [hmid] at hregistered
  exact ⟨henabled, hregistered.symm.trans haddress⟩

end Agree

/-- The members and the fragments agree on the addresses exactly if no node has two entries with different addresses,
and the accounting node, if one is named, is named by another part of the spec too, or is registered with the address
of the controller. -/
theorem addresses_agree_iff (spec : SlurmClusterSpec) (lookup : Lookup) :
    AddressesAgree spec lookup ↔
      (∀ e ∈ entries spec, ∀ e' ∈ entries spec, e.1 = e'.1 → e.2 = e'.2) ∧ AccountingFits spec lookup := by
  constructor
  · exact fun h => ⟨h.entries_agree, h.accountingFits⟩
  · rintro ⟨hentries, haccounting⟩
    have hfits : Fits spec lookup [] (members spec lookup) := fits_members hentries haccounting
    have hown : ∀ m ∈ (members spec lookup).rows, Own spec lookup m.nodeId m.address :=
      fun m hm => (hfits m hm).1 List.not_mem_nil
    refine ⟨fun nodeId => (has_members nodeId).trans (has_iff_named haccounting nodeId), hown, fun m hm p hp => ?_⟩
    rcases mem_mentions hm (fun m hm => (hfits m hm).2) hp with hp | ⟨m, hm, rfl⟩
    · exact own_of_entry hentries hp
    · exact hown m hm

def sampleSpec (controller : SlurmControllerSpec) (compute : List (String × String)) (accountingNode : String) :
    SlurmClusterSpec where
  clusterName := "hpc"
  controller := controller
  backupController := none
  login := []
  accounting := ⟨true, accountingNode⟩
  compute := compute.map fun (nodeId, address) => ⟨nodeId, address, "eth0", ["batch"], 0, 0, "none"⟩
  partitions := [⟨"batch", true, "", ""⟩]
  users := []
  storage := ⟨"none", [], ""⟩
  extraConfig := ""

/-- The controller is a compute node too, with another address: the members have one, `controlAddr` the other. And an
accounting node of its own gets the address of the controller. -/
theorem overlapping_addresses_differ :
    (validateSpec (sampleSpec ⟨"node-1", "10.0.0.1", "eth0"⟩ [("node-1", "10.1.0.1")] "") = .ok () ∧
      ¬AddressesAgree (sampleSpec ⟨"node-1", "10.0.0.1", "eth0"⟩ [("node-1", "10.1.0.1")] "") fun _ => none) ∧
    validateSpec (sampleSpec ⟨"node-1", "10.0.0.1", "eth0"⟩ [("node-2", "10.0.0.2")] "db-1") = .ok () ∧
      ¬AddressesAgree (sampleSpec ⟨"node-1", "10.0.0.1", "eth0"⟩ [("node-2", "10.0.0.2")] "db-1")
        fun _ => some ("10.0.0.9", "eth0") := by
  refine ⟨⟨by decide, fun h => ?_⟩, by decide, fun h => ?_⟩
  · exact absurd h.entries_agree (by decide)
  · have hother := (h.accountingFits (by decide)).resolve_left (by decide)
    exact absurd hother.2 (by decide)

end Kcore.Slurm
