import Kcore.Lib.Checks
import Kcore.Mirror.Session
import Kcore.Net.Unique
import Kcore.Nixgen.Config

/-!
# Names on the node

Everything a VM has on its node is named after the sanitised form of its name: the systemd units of the VM and of its
interfaces, the socket of its API, its logical volume or zvol and its device-mapper device. The controller refuses a
second VM of the same name, but it compares the names as they were asked for: two names can have one sanitised form, and
a name can be another one with the number of an interface. A run keeps the VMs of each node apart if no VM comes to a
node where its names would clash in one of these ways.
-/

namespace Kcore

open Keyed Nixgen
open Checks (bind_eq_ok)

def VmRow.runtimeName (vm : VmRow) : String := sanitizeNixAttrKey vm.name

namespace RuntimeName

/-! ### Requests -/

/-- A `CreateVm` request: the identifier and the name it asks for, the identifier that is drawn if it asks for none,
the row with the node that was chosen, and the number of interfaces besides the first. -/
structure CreateVm where
  id : String
  name : String
  freshId : String
  row : VmRow
  extraNics : Nat

def CreateVm.vmId (req : CreateVm) : String := if req.id = "" then req.freshId else req.id

def CreateVm.vmName (req : CreateVm) : String := if req.name = "" then req.vmId else req.name

def CreateVm.isUpsert (req : CreateVm) (d : DomainTables) : Bool :=
  trim req.name ≠ "" && d.vms.any (·.name = trim req.name)

/-- `create_vm`, as far as it decides what VM there is, and whether it creates one. A request for a VM that is there
changes neither its name nor its node nor its interfaces. -/
def createVm (req : CreateVm) : Query Bool := do
  let isUpsert ← Tx.read req.isUpsert
  if isUpsert then return false
  let idTaken ← Tx.read fun d => d.vms.has req.vmId
  if idTaken then
    throw (if req.id = "" then "failed to allocate unique vm id" else "vm " ++ req.id ++ " already exists")
  let nameTaken ← Tx.read fun d => d.vms.any (VmRow.named req.vmName)
  if nameTaken then throw ("vm name " ++ req.vmName ++ " already exists")
  insertVm { req.row with id := req.vmId, name := req.vmName }
  return true

inductive Action where
  | createVm (req : CreateVm)
  | deleteVm (idOrName : String)
  | migrateVm (vmId targetNode : String)

/-- The tables, and how many rows of `vm_nics` each VM has. -/
structure Site where
  tables : DomainTables
  extraNics : String → Nat

def step (s : Site) : Action → Site
  | .createVm req =>
    let r := (RuntimeName.createVm req).exec s.tables
    ⟨r.2, fun vmId => if r.1.toOption = some true && vmId = req.vmId then req.extraNics else s.extraNics vmId⟩
  | .deleteVm idOrName => { s with tables := ((deleteVmByIdOrName idOrName).exec s.tables).2 }
  | .migrateVm vmId targetNode => { s with tables := ((setVmNode vmId targetNode).exec s.tables).2 }

/-! ### Names of one node -/

/-- `vmInterfaces`: what the units of the interfaces are named after. -/
def interfaces (runtimeName : String) (extraNics : Nat) : List String :=
  runtimeName :: (List.range extraNics).map fun i => runtimeName ++ "-" ++ toString (i + 1)

def units (runtimeName : String) (extraNics : Nat) : List String :=
  ("kcore-vm-" ++ runtimeName ++ ".service") ::
    (interfaces runtimeName extraNics).map fun name => "kcore-tap-" ++ name ++ ".service"

def apiSocket (runtimeName : String) : String := "/run/kcore/" ++ runtimeName ++ ".sock"

def SharesDevice (device : String → Except String String) (name name' : String) : Prop :=
  ∃ path, device name = .ok path ∧ device name' = .ok path

structure Apart (name : String) (nics : Nat) (name' : String) (nics' : Nat) : Prop where
  names : name ≠ name'
  units : (units name nics).Disjoint (units name' nics')
  sockets : apiSocket name ≠ apiSocket name'
  volumes : ∀ vg, ¬ SharesDevice (Mirror.lvmBacking vg) name name'
  zvols : ∀ pool, ¬ SharesDevice (Mirror.zfsDataset pool) name name'
  mappers : ¬ SharesDevice Mirror.mapperPath name name'

def Separate (s : Site) : Prop :=
  ∀ vm ∈ s.tables.vms.rows, ∀ vm' ∈ s.tables.vms.rows, vm.nodeId = vm'.nodeId → vm.id ≠ vm'.id →
    Apart vm.runtimeName (s.extraNics vm.id) vm'.runtimeName (s.extraNics vm'.id)

/-- Neither name is the other one, or the other one with the number of one of its interfaces. -/
abbrev Clear (name : String) (nics : Nat) (name' : String) (nics' : Nat) : Prop :=
  name ∉ interfaces name' nics' ∧ name' ∉ interfaces name nics

def ArrivesAlone (s : Site) : Action → Prop
  | .createVm req => req.isUpsert s.tables = true ∨ ∀ vm ∈ s.tables.vms.rows, vm.nodeId = req.row.nodeId →
      Clear vm.runtimeName (s.extraNics vm.id) (sanitizeNixAttrKey req.vmName) req.extraNics
  | .deleteVm _ => True
  | .migrateVm vmId targetNode => ∀ vm ∈ s.tables.vms.rows, vm.id = vmId →
      ∀ vm' ∈ s.tables.vms.rows, vm'.id ≠ vmId → vm'.nodeId = targetNode →
      Clear vm'.runtimeName (s.extraNics vm'.id) vm.runtimeName (s.extraNics vm.id)

instance (s : Site) (a : Action) : Decidable (ArrivesAlone s a) :=
  match a with
  | .createVm req => inferInstanceAs (Decidable (req.isUpsert s.tables = true ∨ ∀ vm ∈ s.tables.vms.rows, _ → _ ∧ _))
  | .deleteVm _ => inferInstanceAs (Decidable True)
  | .migrateVm _ _ =>
    inferInstanceAs (Decidable (∀ vm ∈ s.tables.vms.rows, _ → ∀ vm' ∈ s.tables.vms.rows, _ → _ → _ ∧ _))

/-! ### Names that differ -/

private theorem trim_sanitizeNixAttrKey (s : String) : trim (sanitizeNixAttrKey s) = sanitizeNixAttrKey s := by
  refine trim_of_no_whitespace fun c hc => ?_
  simp only [sanitizeNixAttrKey, String.toList_ofList, List.mem_map] at hc
  obtain ⟨d, -, rfl⟩ := hc
  split
  · rename_i h
    simp only [Bool.or_eq_true, decide_eq_true_eq] at h
    rcases h with (h | rfl) | rfl
    · exact isWhitespace_of_isAlphanum h
    · decide
    · decide
  · decide

private theorem validateVmName_eq {s name : String} (h : Mirror.validateVmName (sanitizeNixAttrKey s) = .ok name) :
    name = sanitizeNixAttrKey s := by
  unfold Mirror.validateVmName Mirror.validateLabel at h
  dsimp only at h
  rw [trim_sanitizeNixAttrKey] at h
  split_ifs at h
  cases h
  rfl

/-- The device is named after the VM, behind a prefix that does not depend on it. -/
def NamedAfterVm (device : String → Except String String) : Prop :=
  ∃ pre, ∀ name path, device name = .ok path → ∃ vm, Mirror.validateVmName name = .ok vm ∧ path = pre ++ vm

private theorem not_sharesDevice {device : String → Except String String} {s s' : String}
    (hdevice : NamedAfterVm device) (hne : sanitizeNixAttrKey s ≠ sanitizeNixAttrKey s') :
    ¬ SharesDevice device (sanitizeNixAttrKey s) (sanitizeNixAttrKey s') := by
  rintro ⟨path, hs, hs'⟩
  obtain ⟨pre, hpre⟩ := hdevice
  obtain ⟨vm, hvm, hpath⟩ := hpre _ _ hs
  obtain ⟨vm', hvm', hpath'⟩ := hpre _ _ hs'
  have hnames : vm = vm' := (String.append_right_inj pre).mp (hpath.symm.trans hpath')
  rw [validateVmName_eq hvm, validateVmName_eq hvm'] at hnames
  exact hne hnames

private theorem namedAfterVm_mapperPath : NamedAfterVm Mirror.mapperPath := by
  refine ⟨"/dev/mapper/kcore-vm-", fun name path h => ?_⟩
  obtain ⟨vm, hvm, hpath⟩ := bind_eq_ok.mp h
  cases hpath
  exact ⟨vm, hvm, rfl⟩

private theorem lvName_eq_ok {name path : String} (h : Mirror.lvName name = .ok path) :
    ∃ vm, Mirror.validateVmName name = .ok vm ∧ path = "kcore-" ++ vm := by
  obtain ⟨vm, hvm, hpath⟩ := bind_eq_ok.mp h
  cases hpath
  exact ⟨vm, hvm, rfl⟩

private theorem namedAfterVm_bind (parent : Except String String) (render : String → String) :
    NamedAfterVm fun name => do
      let group ← parent
      return render group ++ (← Mirror.lvName name) := by
  cases parent with
  | error e => exact ⟨"", fun name path h => by cases h⟩
  | ok group =>
    refine ⟨render group ++ "kcore-", fun name path h => ?_⟩
    obtain ⟨_, hgroup, h⟩ := bind_eq_ok.mp h
    cases hgroup
    obtain ⟨lv, hlv, hpath⟩ := bind_eq_ok.mp h
    obtain ⟨vm, hvm, rfl⟩ := lvName_eq_ok hlv
    cases hpath
    exact ⟨vm, hvm, String.append_assoc.symm⟩

private theorem dropWhile_dashed (name : String) (n : Nat) :
    (name ++ "-" ++ toString n).toList.reverse.dropWhile (· ≠ '-') = '-' :: name.toList.reverse := by
  rw [String.toList_append, List.reverse_append, List.dropWhile_append_of_pos]
  · simp
  · intro c hc
    have hdigit := isDigit_of_mem_toString (List.mem_reverse.mp hc)
    exact decide_eq_true fun heq => absurd (heq ▸ hdigit) (by decide)

private theorem dashed_inj {name name' : String} {m n : Nat}
    (h : name ++ "-" ++ toString m = name' ++ "-" ++ toString n) : name = name' := by
  have hdrop := dropWhile_dashed name m
  rw [h, dropWhile_dashed] at hdrop
  exact String.toList_inj.mp (List.reverse_injective (List.cons.inj hdrop).2).symm

private theorem disjoint_interfaces {name name' : String} {nics nics' : Nat} (h : Clear name nics name' nics') :
    (interfaces name nics).Disjoint (interfaces name' nics') := by
  intro x hx hx'
  rcases List.mem_cons.mp hx with rfl | hx
  · exact h.1 hx'
  rcases List.mem_cons.mp hx' with rfl | hx'
  · exact h.2 (List.mem_cons_of_mem _ hx)
  obtain ⟨i, -, rfl⟩ := List.mem_map.mp hx
  obtain ⟨j, -, hj⟩ := List.mem_map.mp hx'
  exact h.1 (dashed_inj hj ▸ List.mem_cons_self)

private theorem disjoint_units {name name' : String} {nics nics' : Nat} (h : Clear name nics name' nics') :
    (units name nics).Disjoint (units name' nics') := by
  have hkinds : ∀ x y, "kcore-vm-" ++ x ++ ".service" ≠ "kcore-tap-" ++ y ++ ".service" := by
    intro x y heq
    have hlist := congrArg String.toList heq
    simp [String.toList_append] at hlist
  intro u hu hu'
  rcases List.mem_cons.mp hu with rfl | hu
  · rcases List.mem_cons.mp hu' with heq | hu'
    · exact h.1 ((String.append_right_inj _).mp ((String.append_left_inj _).mp heq) ▸ List.mem_cons_self)
    · obtain ⟨x, -, hx⟩ := List.mem_map.mp hu'
      exact hkinds _ _ hx.symm
  · obtain ⟨x, hx, rfl⟩ := List.mem_map.mp hu
    rcases List.mem_cons.mp hu' with heq | hu'
    · exact hkinds _ _ heq.symm
    · obtain ⟨y, hy, heq⟩ := List.mem_map.mp hu'
      obtain rfl := (String.append_right_inj _).mp ((String.append_left_inj _).mp heq)
      exact disjoint_interfaces h hx hy

private theorem apart_of_clear {s s' : String} {nics nics' : Nat}
    (h : Clear (sanitizeNixAttrKey s) nics (sanitizeNixAttrKey s') nics') :
    Apart (sanitizeNixAttrKey s) nics (sanitizeNixAttrKey s') nics' := by
  have hne : sanitizeNixAttrKey s ≠ sanitizeNixAttrKey s' := fun heq => h.1 (heq ▸ List.mem_cons_self)
  exact {
    names := hne
    units := disjoint_units h
    sockets := fun heq => hne ((String.append_right_inj _).mp ((String.append_left_inj _).mp heq))
    volumes := fun vg => not_sharesDevice (namedAfterVm_bind _ fun group => "/dev/" ++ group ++ "/") hne
    zvols := fun pool => not_sharesDevice (namedAfterVm_bind _ (· ++ "/")) hne
    mappers := not_sharesDevice namedAfterVm_mapperPath hne }

/-! ### What a request does to the rows -/

private theorem createVm_cases (req : CreateVm) (d : DomainTables) :
    (((createVm req).exec d).2.vms = d.vms ∧ ((createVm req).exec d).1.toOption ≠ some true) ∨
      (req.isUpsert d = false ∧ ((createVm req).exec d).1.toOption = some true ∧
        ((createVm req).exec d).2.vms = d.vms.put { req.row with id := req.vmId, name := req.vmName }) := by
  unfold createVm insertVm upsertVm
  cases hupsert : req.isUpsert d with
  | true => left; simp [hupsert, Except.toOption]
  | false =>
    by_cases hid : d.vms.has req.vmId
    · left; simp [hupsert, hid, Except.toOption]
    by_cases hname : d.vms.any (VmRow.named req.vmName)
    · left; simp [hupsert, hid, hname, Except.toOption]
    by_cases hnode : d.nodes.has req.row.nodeId
    · right; simp [hupsert, hid, hname, hnode, Tx.exec_map, Except.toOption]
    · left; simp [hupsert, hid, hname, hnode, Except.toOption]

private theorem mem_of_mem_deleteVm {idOrName : String} {d : DomainTables} {vm : VmRow}
    (h : vm ∈ ((deleteVmByIdOrName idOrName).exec d).2.vms.rows) : vm ∈ d.vms.rows := by
  unfold deleteVmByIdOrName at h
  rw [Tx.exec_read_bind] at h
  by_cases hfound : (d.vms.rows.filter (VmRow.named idOrName)).isEmpty
  · simpa [hfound] using h
  · have hrel : Releases d
        ((d.vms.rows.filter (VmRow.named idOrName)).foldl (fun d vm => releaseVmAddresses vm d) d) :=
      Releases.foldl (fun vm hvm d' h' => h'.releaseVmAddresses (List.mem_filter.mp hvm).1) (.refl d)
    have hmem : vm ∈ (removeVms (VmRow.named idOrName)
        ((d.vms.rows.filter (VmRow.named idOrName)).foldl (fun d vm => releaseVmAddresses vm d) d)).vms.rows := by
      simpa [hfound, Tx.exec_map] using h
    rw [← hrel.vms]
    exact (List.mem_filter.mp hmem).1

/-! ### Runs -/

private theorem separate_createVm {s : Site} {req : CreateVm} (h : Separate s) (ha : ArrivesAlone s (.createVm req)) :
    Separate (step s (.createVm req)) := by
  unfold Separate step
  dsimp only
  intro vm hvm vm' hvm' hnode hid
  rcases createVm_cases req s.tables with ⟨hvms, hno⟩ | ⟨hupsert, hok, hvms⟩
  · rw [hvms] at hvm hvm'
    simpa [hno] using h vm hvm vm' hvm' hnode hid
  · have halone := ha.resolve_left (by simp [hupsert])
    rw [hvms, Table.mem_put] at hvm hvm'
    rcases hvm with rfl | ⟨hvm, hne⟩ <;> rcases hvm' with rfl | ⟨hvm', hne'⟩
    · exact absurd rfl hid
    · simpa [VmRow.runtimeName, hok, hne'] using apart_of_clear (halone vm' hvm' hnode.symm).symm
    · simpa [VmRow.runtimeName, hok, hne] using apart_of_clear (halone vm hvm hnode)
    · simpa [hok, hne, hne'] using h vm hvm vm' hvm' hnode hid

private theorem separate_deleteVm {s : Site} (h : Separate s) (idOrName : String) :
    Separate (step s (.deleteVm idOrName)) :=
  fun vm hvm vm' hvm' => h vm (mem_of_mem_deleteVm hvm) vm' (mem_of_mem_deleteVm hvm')

private theorem separate_migrateVm {s : Site} {vmId targetNode : String} (h : Separate s)
    (ha : ArrivesAlone s (.migrateVm vmId targetNode)) : Separate (step s (.migrateVm vmId targetNode)) := by
  unfold Separate step
  dsimp only
  rcases exec_setVmNode vmId targetNode s.tables with hvms | hvms
  · rw [hvms]
    exact h
  · intro vm hvm vm' hvm' hnode hid
    rw [hvms, Table.mem_update] at hvm hvm'
    obtain ⟨o, ho, rfl⟩ := hvm
    obtain ⟨o', ho', rfl⟩ := hvm'
    by_cases hmoved : o.id = vmId <;> by_cases hmoved' : o'.id = vmId
    · simp [hmoved, hmoved'] at hid
    · simp only [hmoved, hmoved', decide_true, decide_false, if_true, if_false, Bool.false_eq_true] at hnode hid ⊢
      exact hmoved ▸ apart_of_clear (ha o ho hmoved o' ho' hmoved' hnode.symm).symm
    · simp only [hmoved, hmoved', decide_true, decide_false, if_true, if_false, Bool.false_eq_true] at hnode hid ⊢
      exact hmoved' ▸ apart_of_clear (ha o' ho' hmoved' o ho hmoved hnode)
    · simp only [hmoved, hmoved', decide_false, if_false, Bool.false_eq_true] at hnode hid ⊢
      exact h o ho o' ho' hnode hid

/-- **The VMs of a node stay apart.** In a run in which no VM comes to a node where its sanitised name clashes, the VMs
of each node share no name, unit, socket, volume, zvol or device-mapper device. -/
theorem runtime_identities_separate {s : Site} {acts : List Action} (hs : Separate s)
    (hacts : Machine.Each step ArrivesAlone s acts) : Machine.Along step Separate s acts := by
  refine Machine.along_of_each hs (fun s a h ha => ?_) hacts
  cases a with
  | createVm req => exact separate_createVm h ha
  | deleteVm idOrName => exact separate_deleteVm h idOrName
  | migrateVm vmId targetNode => exact separate_migrateVm h ha

def guest (id name : String) (extraNics : Nat) : CreateVm := ⟨id, name, "vm-0", overlayVm id "", extraNics⟩

def emptySite : Site := ⟨oneHost, fun _ => 0⟩

theorem two_guests_separate : Machine.Along step Separate emptySite
    [.createVm (guest "vm-1" "web" 2), .createVm (guest "vm-2" "web-3" 1)] :=
  runtime_identities_separate (fun vm hvm => by cases hvm) (by decide)

def dotted : List Action := [.createVm (guest "vm-1" "web.1" 0), .createVm (guest "vm-2" "web-1" 0)]

/-- `web.1` and `web-1` are one name on the node. -/
theorem dotted_name_collides : ¬ Machine.Along step Separate emptySite dotted := by
  intro h
  have hshared : ∃ vm ∈ (Machine.run step emptySite dotted).tables.vms.rows,
      ∃ vm' ∈ (Machine.run step emptySite dotted).tables.vms.rows,
      vm.nodeId = vm'.nodeId ∧ vm.id ≠ vm'.id ∧ vm.runtimeName = vm'.runtimeName := by
    decide
  obtain ⟨vm, hvm, vm', hvm', hnode, hid, hname⟩ := hshared
  exact (h.last vm hvm vm' hvm' hnode hid).names hname

end RuntimeName

end Kcore
