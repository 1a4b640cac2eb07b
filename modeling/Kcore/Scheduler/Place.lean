import Kcore.Lib.Checks
import Kcore.Lib.Run
import Kcore.Store.Rows
import Mathlib.Data.List.MinMax
import Mathlib.Data.Prod.Lex

/-!
# Where a VM is placed

`CreateVm` puts a VM on the node that the request names, or on another one if that node cannot take it, or else on the
suitable node with the most room. A drain and a failover choose among the nodes that are left in the same way.
`placed_where_it_fits` says which node a request gets, `groups_stay_apart` what holds of the VMs that have been placed.
-/

namespace Kcore.Scheduler

open Checks Machine

/-! ### The scheduler -/

/-- What the ratios make of a number of cores and of bytes. The source rounds a product of floating-point numbers. -/
structure Overcommit where
  cpu : Int → Int
  memory : Int → Int

structure Constraints where
  overcommit : Overcommit
  dc : String
  requiredLabels : List String
  nodeLabels : String → List String
  antiAffinity : String
  groupsOnNode : String → List String

structure Room where
  memory : Int
  cpu : Int

/-- Memory counts first. -/
instance Room.instLinearOrder : LinearOrder Room :=
  LinearOrder.lift' (fun r => toLex (r.memory, r.cpu)) fun ⟨_, _⟩ ⟨_, _⟩ h => by simpa using h

def freeCapacity (node : NodeRow) (o : Overcommit) : Room :=
  ⟨o.memory node.memoryBytes - node.memoryUsed, o.cpu node.cpuCores - node.cpuUsed⟩

def nodeHasCapacity (node : NodeRow) (cpu memory : Int) (o : Overcommit) : Bool :=
  let free := freeCapacity node o
  cpu ≤ free.cpu && memory ≤ free.memory

def labelsMatch (node : NodeRow) (c : Constraints) : Bool :=
  c.requiredLabels.all (c.nodeLabels node.id).contains

def antiAffinityOk (node : NodeRow) (c : Constraints) : Bool :=
  let group := trim c.antiAffinity
  group = "" || !(c.groupsOnNode node.id).contains group

def accepts (cpu memory : Int) (c : Constraints) (node : NodeRow) : Bool :=
  node.status = "ready" && node.approvalStatus = "approved" && (c.dc = "" || node.dcId = c.dc) &&
    nodeHasCapacity node cpu memory c.overcommit && labelsMatch node c && antiAffinityOk node c

/-- `max_by_key` takes the last of several nodes with the most room. -/
def selectWithConstraints (nodes : List NodeRow) (cpu memory : Int) (c : Constraints) : Option NodeRow :=
  (nodes.filter (accepts cpu memory c)).reverse.argmax (freeCapacity · c.overcommit)

def normalizeLabel (raw : String) : Except String String :=
  let raw := trim raw
  match splitOnce raw '=' with
  | none => .error ("node label '" ++ raw ++ "' must be key=value, for example dc=dc-a")
  | some (key, value) =>
    if key = "" || value = "" || key.toList.any isWhitespace || value.toList.any isWhitespace then
      .error ("node label '" ++ raw ++ "' must be key=value with no spaces")
    else .ok (key ++ "=" ++ value)

def normalizeAntiAffinity (raw : String) : Except String String :=
  let raw := trim raw
  if raw = "" then .ok ""
  else if raw.utf8ByteSize ≤ 64 && raw.toList.all (fun c => c.isAlphanum || c = '-' || c = '_' || c = '.') then .ok raw
  else .error ("anti-affinity group '" ++ raw ++
    "' must be 1-64 characters of letters, digits, '.', '_' or '-'")

/-! ### `CreateVm` -/

structure Guest where
  vmId : String
  cpu : Int
  memory : Int
  nodeId : String
  antiAffinity : String

structure Cluster where
  nodes : List NodeRow
  labels : List NodeLabelRow
  cephMembers : List String
  guests : List Guest

/-- The fields of a request that matter here. `wantsDevice` is set for PCI addresses and whole GPUs. -/
structure Request where
  targetNode : String
  targetDc : String
  storageBackend : String
  cpu : Int
  memory : Int
  nodeLabels : List String
  antiAffinity : String
  wantsDevice : Bool
  wantsVgpu : Bool

namespace Cluster

variable (c : Cluster) (o : Overcommit)

def nodeLabels (nodeId : String) : List String := (c.labels.filter (·.nodeId = nodeId)).map (·.label)

def antiAffinityGroupsByNode (nodeId : String) : List String :=
  (c.guests.filter fun g => g.antiAffinity ≠ "" && g.nodeId = nodeId).map (·.antiAffinity)

def nodeSupportsBackend (node : NodeRow) (backend : String) : Bool :=
  node.storageBackend = backend || backend = "ceph" && c.cephMembers.contains node.id

def selectScheduledNode (nodes : List NodeRow) (cpu memory : Int) (dc : String) (requiredLabels : List String)
    (antiAffinity : String) : Option NodeRow :=
  selectWithConstraints nodes cpu memory
    ⟨o, dc, requiredLabels, c.nodeLabels, antiAffinity, c.antiAffinityGroupsByNode⟩

def ensureExplicitPlacement (node : NodeRow) (requiredLabels : List String) (antiAffinity : String) :
    Except String Unit := do
  let missing := requiredLabels.filter fun want => !(c.nodeLabels node.id).contains want
  check missing.isEmpty ("node '" ++ node.id ++ "' is missing label(s) " ++ ", ".intercalate missing)
  check (antiAffinity = "" || !(c.antiAffinityGroupsByNode node.id).contains antiAffinity)
    ("node '" ++ node.id ++ "' already hosts anti-affinity group '" ++ antiAffinity ++ "'")

def alternativeVmCreateNodes (excludeNodeId backend : String) (cpu memory : Int) : List NodeRow :=
  c.nodes.filter fun n => n.id ≠ excludeNodeId && c.nodeSupportsBackend n backend && n.approvalStatus = "approved" &&
    n.status = "ready" && nodeHasCapacity n cpu memory o

def preflightVmCreateOnNode (node : NodeRow) (req : Request) : Except String Unit := do
  let ids := ((c.alternativeVmCreateNodes o node.id req.storageBackend req.cpu req.memory).map (·.id)).take 3
  let hint := if ids = [] then "" else "; try target_node one of: " ++ ", ".intercalate ids
  let free := freeCapacity node o
  check (node.approvalStatus = "approved") ("node '" ++ node.id ++ "' is not approved" ++ hint)
  check (node.status = "ready") ("node '" ++ node.id ++ "' is not ready" ++ hint)
  check (nodeHasCapacity node req.cpu req.memory o) ("node '" ++ node.id ++ "' lacks capacity for request (need cpu=" ++
    toString req.cpu ++ " mem=" ++ toString req.memory ++ ", available cpu=" ++ toString free.cpu ++ " mem=" ++
    toString free.memory ++ ")" ++ hint)

/-- The node of a request that names none. `vgpuFits` says where `assign_vgpus_on_node` succeeds. -/
def placeAnywhere (vgpuFits : NodeRow → Bool) (req : Request) (labels : List String) (group : String) :
    Except String NodeRow :=
  let compatible := c.nodes.filter fun n =>
    c.nodeSupportsBackend n req.storageBackend && (!req.wantsVgpu || vgpuFits n)
  let dc := trim req.targetDc
  match c.selectScheduledNode o compatible req.cpu req.memory dc labels group with
  | some node => .ok node
  | none => .error (
    if req.wantsVgpu then "no ready node has a free vGPU slice for the requested profile"
    else if group ≠ "" then "no ready node can place another VM in anti-affinity group '" ++ group ++ "'"
    else if labels ≠ [] then "no ready node with labels [" ++ ", ".intercalate labels ++ "] has sufficient capacity"
    else if dc = "" then "no ready node with sufficient capacity matching requested storage backend"
    else "no ready node in DC '" ++ dc ++ "' with sufficient capacity matching requested storage backend")

def findNode (target : String) : Option NodeRow :=
  (c.nodes.find? (·.address = target)).or (c.nodes.find? (·.id = target))

/-- The node of a request that names one: the target, or another node if the target fails its preflight. -/
def placeOnTarget (req : Request) (labels : List String) (group : String) : Except String NodeRow :=
  match c.findNode req.targetNode with
  | none => .error ("node " ++ req.targetNode ++ " not found")
  | some node => do
    c.ensureExplicitPlacement node labels group
    let preflight := if !c.nodeSupportsBackend node req.storageBackend then
        .error ("VM storage backend '" ++ req.storageBackend ++ "' does not match node '" ++ node.id ++ "' backend '" ++
          node.storageBackend ++ "'")
      else c.preflightVmCreateOnNode o node req
    match preflight with
    | .ok _ => .ok node
    | .error err =>
      if req.wantsDevice || req.wantsVgpu then .error err
      else
        let others := c.alternativeVmCreateNodes o node.id req.storageBackend req.cpu req.memory
        match c.selectScheduledNode o others req.cpu req.memory "" labels group with
        | some fallback => .ok fallback
        | none => .error err

def chooseNode (vgpuFits : NodeRow → Bool) (req : Request) (labels : List String) (group : String) :
    Except String NodeRow :=
  if req.targetNode ≠ "" then c.placeOnTarget o req labels group else c.placeAnywhere o vgpuFits req labels group

def placeVm (vgpuFits : NodeRow → Bool) (req : Request) : Except String NodeRow := do
  let labels ← req.nodeLabels.mapM normalizeLabel
  let group ← normalizeAntiAffinity req.antiAffinity
  check (!req.wantsDevice || trim req.targetNode ≠ "")
    "a PCI assignment requires target_node; the controller does not place passthrough devices automatically"
  let node ← c.chooseNode o vgpuFits req labels group
  c.preflightVmCreateOnNode o node req
  return node

end Cluster

/-! ### The node of a request -/

/-- The node can take a VM: it is up, it has room, it has the labels, and no VM of the group is on it. -/
structure Eligible (c : Cluster) (o : Overcommit) (cpu memory : Int) (labels : List String) (group : String)
    (n : NodeRow) : Prop where
  ready : n.status = "ready"
  approved : n.approvalStatus = "approved"
  room : nodeHasCapacity n cpu memory o = true
  labels : ∀ label ∈ labels, label ∈ c.nodeLabels n.id
  group : group = "" ∨ group ∉ c.antiAffinityGroupsByNode n.id

section Selection

variable {c : Cluster} {o : Overcommit} {nodes : List NodeRow} {cpu memory : Int} {dc : String} {labels : List String}
  {group : String} {n : NodeRow}

private theorem accepts_iff (hgroup : trim group = group) :
    accepts cpu memory ⟨o, dc, labels, c.nodeLabels, group, c.antiAffinityGroupsByNode⟩ n = true ↔
      (dc = "" ∨ n.dcId = dc) ∧ Eligible c o cpu memory labels group n := by
  simp only [accepts, labelsMatch, antiAffinityOk, hgroup, Bool.and_eq_true, Bool.or_eq_true, Bool.not_eq_true',
    List.all_eq_true, List.contains_eq_mem, decide_eq_true_eq, decide_eq_false_iff_not]
  constructor
  · rintro ⟨⟨⟨⟨⟨hready, happroved⟩, hdc⟩, hroom⟩, hlabels⟩, hfree⟩
    exact ⟨hdc, hready, happroved, hroom, hlabels, hfree⟩
  · rintro ⟨hdc, h⟩
    exact ⟨⟨⟨⟨⟨h.ready, h.approved⟩, hdc⟩, h.room⟩, h.labels⟩, h.group⟩

private theorem select_eq_some (hgroup : trim group = group)
    (h : c.selectScheduledNode o nodes cpu memory dc labels group = some n) :
    (n ∈ nodes ∧ (dc = "" ∨ n.dcId = dc) ∧ Eligible c o cpu memory labels group n) ∧
      ∀ m ∈ nodes, dc = "" ∨ m.dcId = dc → Eligible c o cpu memory labels group m →
        freeCapacity m o ≤ freeCapacity n o := by
  have hmem := List.mem_filter.mp (List.mem_reverse.mp (List.argmax_mem h))
  refine ⟨⟨hmem.1, (accepts_iff hgroup).mp hmem.2⟩, fun m hm hdc he => ?_⟩
  have haccepted := List.mem_filter.mpr ⟨hm, (accepts_iff hgroup).mpr ⟨hdc, he⟩⟩
  exact List.le_of_mem_argmax (List.mem_reverse.mpr haccepted) h

private theorem exists_select (hgroup : trim group = group) (hn : n ∈ nodes) (hdc : dc = "" ∨ n.dcId = dc)
    (he : Eligible c o cpu memory labels group n) :
    ∃ m, c.selectScheduledNode o nodes cpu memory dc labels group = some m := by
  have haccepted := List.mem_filter.mpr ⟨hn, (accepts_iff hgroup).mpr ⟨hdc, he⟩⟩
  refine Option.ne_none_iff_exists'.mp fun hnone => ?_
  rw [List.reverse_eq_nil_iff.mp (List.argmax_eq_none.mp hnone)] at haccepted
  exact absurd haccepted List.not_mem_nil

variable {req : Request}

private theorem preflight_eq_ok {u : Unit} : c.preflightVmCreateOnNode o n req = .ok u ↔
    n.approvalStatus = "approved" ∧ n.status = "ready" ∧ nodeHasCapacity n req.cpu req.memory o = true := by
  simp only [Cluster.preflightVmCreateOnNode, bind_eq_ok, check_eq_ok, decide_eq_true_eq, exists_and_left, exists_const]

private theorem ensureExplicitPlacement_eq_ok {u : Unit} : c.ensureExplicitPlacement n labels group = .ok u ↔
    (∀ label ∈ labels, label ∈ c.nodeLabels n.id) ∧ (group = "" ∨ group ∉ c.antiAffinityGroupsByNode n.id) := by
  simp only [Cluster.ensureExplicitPlacement, bind_eq_ok, check_eq_ok, exists_and_left, exists_const]
  simp

private theorem trim_group {raw : String} (h : normalizeAntiAffinity raw = .ok group) : trim group = group := by
  simp only [normalizeAntiAffinity] at h
  split_ifs at h <;> cases h
  · rfl
  · exact trim_trim raw

private theorem mem_of_findNode {target : String} (h : c.findNode target = some n) : n ∈ c.nodes := by
  rcases Option.or_eq_some_iff.mp h with h | ⟨-, h⟩
  · exact List.mem_of_find?_eq_some h
  · exact List.mem_of_find?_eq_some h

structure Suits (c : Cluster) (o : Overcommit) (req : Request) (labels : List String) (group : String) (n : NodeRow) :
    Prop extends Eligible c o req.cpu req.memory labels group n where
  mem : n ∈ c.nodes
  backend : c.nodeSupportsBackend n req.storageBackend = true

structure Candidate (c : Cluster) (o : Overcommit) (vgpuFits : NodeRow → Bool) (req : Request) (labels : List String)
    (group : String) (n : NodeRow) : Prop extends Suits c o req labels group n where
  slice : req.wantsVgpu = true → vgpuFits n = true
  inDc : trim req.targetDc = "" ∨ n.dcId = trim req.targetDc

variable {vgpuFits : NodeRow → Bool}

private theorem mem_compatible : n ∈ (c.nodes.filter fun n => c.nodeSupportsBackend n req.storageBackend &&
      (!req.wantsVgpu || vgpuFits n)) ∧ (trim req.targetDc = "" ∨ n.dcId = trim req.targetDc) ∧
      Eligible c o req.cpu req.memory labels group n ↔ Candidate c o vgpuFits req labels group n := by
  rw [List.mem_filter, Bool.and_eq_true, Bool.or_eq_true, Bool.not_eq_true']
  constructor
  · rintro ⟨⟨hn, hbackend, hslice⟩, hdc, he⟩
    refine ⟨⟨he, hn, hbackend⟩, fun hwants => hslice.resolve_left ?_, hdc⟩
    rw [hwants]
    exact Bool.noConfusion
  · intro h
    refine ⟨⟨h.mem, h.backend, ?_⟩, h.inDc, h.toEligible⟩
    cases hwants : req.wantsVgpu with
    | false => exact .inl rfl
    | true => exact .inr (h.slice hwants)

private theorem placeAnywhere_eq_ok (hgroup : trim group = group)
    (h : c.placeAnywhere o vgpuFits req labels group = .ok n) :
    Candidate c o vgpuFits req labels group n ∧
      ∀ m, Candidate c o vgpuFits req labels group m → freeCapacity m o ≤ freeCapacity n o := by
  unfold Cluster.placeAnywhere at h
  dsimp only at h
  split at h
  · rename_i node hselect
    cases h
    obtain ⟨hfits, hbest⟩ := select_eq_some hgroup hselect
    refine ⟨mem_compatible.mp hfits, fun m hm => ?_⟩
    obtain ⟨hmem, hdc, he⟩ := mem_compatible.mpr hm
    exact hbest m hmem hdc he
  · cases h

private theorem exists_placeAnywhere (hgroup : trim group = group) (h : Candidate c o vgpuFits req labels group n) :
    ∃ m, c.placeAnywhere o vgpuFits req labels group = .ok m := by
  obtain ⟨hmem, hdc, he⟩ := mem_compatible.mpr h
  obtain ⟨m, hm⟩ := exists_select hgroup hmem hdc he
  refine ⟨m, ?_⟩
  unfold Cluster.placeAnywhere
  dsimp only
  rw [hm]

private theorem placeOnTarget_eq_ok (hgroup : trim group = group) (h : c.placeOnTarget o req labels group = .ok n) :
    Suits c o req labels group n := by
  unfold Cluster.placeOnTarget at h
  split at h
  · cases h
  · rename_i target htarget
    obtain ⟨u, hexplicit, h⟩ := bind_eq_ok.mp h
    obtain ⟨hlabels, hfree⟩ := ensureExplicitPlacement_eq_ok.mp hexplicit
    dsimp only at h
    split at h
    · rename_i hpreflight
      cases h
      split_ifs at hpreflight with hbackend
      obtain ⟨happroved, hready, hroom⟩ := preflight_eq_ok.mp hpreflight
      exact ⟨⟨hready, happroved, hroom, hlabels, hfree⟩, mem_of_findNode htarget, by simpa using hbackend⟩
    · -- the target does not do, and another node is chosen as if none had been named
      split_ifs at h
      split at h
      · rename_i fallback hselect
        cases h
        obtain ⟨⟨hmem, -, he⟩, -⟩ := select_eq_some hgroup hselect
        obtain ⟨hn, hothers⟩ := List.mem_filter.mp hmem
        simp only [Bool.and_eq_true] at hothers
        exact ⟨he, hn, hothers.1.1.1.2⟩
      · cases h

private theorem placeOnTarget_of_suits (htarget : c.findNode req.targetNode = some n)
    (h : Suits c o req labels group n) : c.placeOnTarget o req labels group = .ok n := by
  have hexplicit : c.ensureExplicitPlacement n labels group = .ok () :=
    ensureExplicitPlacement_eq_ok.mpr ⟨h.labels, h.group⟩
  have hpreflight : c.preflightVmCreateOnNode o n req = .ok () :=
    preflight_eq_ok.mpr ⟨h.approved, h.ready, h.room⟩
  unfold Cluster.placeOnTarget
  rw [htarget]
  refine bind_eq_ok.mpr ⟨(), hexplicit, ?_⟩
  dsimp only
  rw [h.backend, if_neg (by decide), hpreflight]

private theorem placeVm_eq_ok (hlabels : req.nodeLabels.mapM normalizeLabel = .ok labels)
    (hgroup : normalizeAntiAffinity req.antiAffinity = .ok group) : c.placeVm o vgpuFits req = .ok n ↔
      (req.wantsDevice = true → trim req.targetNode ≠ "") ∧
      c.chooseNode o vgpuFits req labels group = .ok n ∧
      n.approvalStatus = "approved" ∧ n.status = "ready" ∧ nodeHasCapacity n req.cpu req.memory o = true := by
  unfold Cluster.placeVm
  rw [hlabels, hgroup]
  simp only [bind_eq_ok, check_eq_ok, preflight_eq_ok, Bool.or_eq_true, Bool.not_eq_true', decide_eq_true_eq]
  constructor
  · rintro ⟨_, hl, _, hg, _, hdevice, m, hplace, _, hfits, hreturn⟩
    cases hl
    cases hg
    cases hreturn
    exact ⟨fun hwants => hdevice.resolve_left (by simp [hwants]), hplace, hfits⟩
  · rintro ⟨hdevice, hplace, hfits⟩
    refine ⟨labels, rfl, group, rfl, (), ?_, n, hplace, (), hfits, rfl⟩
    cases hwants : req.wantsDevice with
    | false => exact .inl rfl
    | true => exact .inr (hdevice hwants)

private theorem placeAnywhere_of_placeVm (hlabels : req.nodeLabels.mapM normalizeLabel = .ok labels)
    (hgroup : normalizeAntiAffinity req.antiAffinity = .ok group) (hnone : req.targetNode = "")
    (h : c.placeVm o vgpuFits req = .ok n) : c.placeAnywhere o vgpuFits req labels group = .ok n := by
  have hplace := ((placeVm_eq_ok hlabels hgroup).mp h).2.1
  rwa [Cluster.chooseNode, if_neg (not_not_intro hnone)] at hplace

private theorem suits_of_placeVm (hlabels : req.nodeLabels.mapM normalizeLabel = .ok labels)
    (hgroup : normalizeAntiAffinity req.antiAffinity = .ok group) (h : c.placeVm o vgpuFits req = .ok n) :
    Suits c o req labels group n := by
  by_cases hnone : req.targetNode = ""
  · have hplace := placeAnywhere_of_placeVm hlabels hgroup hnone h
    exact (placeAnywhere_eq_ok (trim_group hgroup) hplace).1.toSuits
  · have hplace := ((placeVm_eq_ok hlabels hgroup).mp h).2.1
    rw [Cluster.chooseNode, if_pos hnone] at hplace
    exact placeOnTarget_eq_ok (trim_group hgroup) hplace

end Selection

/-- Every VM is put on a node that can take it. The node that a request names is taken if it can. A request that names
none gets a node whenever there is one for it, and then one with the most room. -/
theorem placed_where_it_fits (c : Cluster) (o : Overcommit) (vgpuFits : NodeRow → Bool) (req : Request)
    {labels : List String} {group : String} (hlabels : req.nodeLabels.mapM normalizeLabel = .ok labels)
    (hgroup : normalizeAntiAffinity req.antiAffinity = .ok group) :
    (∀ n, c.placeVm o vgpuFits req = .ok n → Suits c o req labels group n) ∧
    (∀ n, req.targetNode ≠ "" → (req.wantsDevice = true → trim req.targetNode ≠ "") →
      c.findNode req.targetNode = some n → Suits c o req labels group n → c.placeVm o vgpuFits req = .ok n) ∧
    (req.targetNode = "" → req.wantsDevice = false →
      ((∃ n, c.placeVm o vgpuFits req = .ok n) ↔ ∃ n, Candidate c o vgpuFits req labels group n) ∧
      ∀ n, c.placeVm o vgpuFits req = .ok n → Candidate c o vgpuFits req labels group n ∧
        ∀ m, Candidate c o vgpuFits req labels group m → freeCapacity m o ≤ freeCapacity n o) := by
  have htrim := trim_group hgroup
  refine ⟨fun n h => suits_of_placeVm hlabels hgroup h, fun n hsome hdevice htarget hsuits => ?_,
    fun hnone hdevice => ⟨⟨?_, ?_⟩, ?_⟩⟩
  · refine (placeVm_eq_ok hlabels hgroup).mpr ⟨hdevice, ?_, hsuits.approved, hsuits.ready, hsuits.room⟩
    rw [Cluster.chooseNode, if_pos hsome]
    exact placeOnTarget_of_suits htarget hsuits
  · rintro ⟨n, h⟩
    exact ⟨n, (placeAnywhere_eq_ok htrim (placeAnywhere_of_placeVm hlabels hgroup hnone h)).1⟩
  · rintro ⟨m, hm⟩
    obtain ⟨n, hn⟩ := exists_placeAnywhere htrim hm
    have hfits := (placeAnywhere_eq_ok htrim hn).1
    refine ⟨n, (placeVm_eq_ok hlabels hgroup).mpr
      ⟨fun hwants => ?_, ?_, hfits.approved, hfits.ready, hfits.room⟩⟩
    · cases hdevice.symm.trans hwants
    · rwa [Cluster.chooseNode, if_neg (not_not_intro hnone)]
  · exact fun n h => placeAnywhere_eq_ok htrim (placeAnywhere_of_placeVm hlabels hgroup hnone h)

def nodeOf (id : String) : NodeRow :=
  ⟨id, id, id ++ ":9091", 8, 16, "ready", "", "", 0, 0, "lvm", false, "approved", -1, "", "DC1"⟩

/-- Three nodes; the first has a VM of the group, the third lacks the label. -/
theorem labelled_node_taken : ∃ n, (⟨[nodeOf "n1", nodeOf "n2", nodeOf "n3"],
      [⟨"n1", "disk=nvme"⟩, ⟨"n2", "disk=nvme"⟩], [], [⟨"vm-1", 2, 4, "n1", "web"⟩]⟩ : Cluster).placeVm ⟨id, id⟩
    (fun _ => false) ⟨"", " DC1", "lvm", 2, 4, [" disk=nvme"], "web", false, false⟩ = .ok n := by
  refine ((@placed_where_it_fits _ _ _ _ ["disk=nvme"] "web" (by decide) (by decide)).2.2 rfl rfl).1.mpr
    ⟨nodeOf "n2", ⟨⟨rfl, rfl, by decide, by decide, .inr (by decide)⟩, by simp, by decide⟩, ?_, .inr (by decide)⟩
  exact fun h => by cases h

/-! ### The groups over time -/

/-- A request that is carried out, a drain or a failover that moves one VM, or a change of the nodes from outside.
`move` asks the scheduler for one of the nodes that may be used; `moveTo` does not: a drain goes to the target that is
named, or with a VM that has a GPU or PCI device to the first node with a free device, a failover to the node with the
replica of a zvol. -/
inductive Step where
  | create (vmId : String) (req : Request)
  | delete (vmId : String)
  | move (vmId : String) (among : NodeRow → Bool)
  | moveTo (vmId nodeId : String)
  | observe (nodes : List NodeRow) (labels : List NodeLabelRow) (cephMembers : List String)

namespace Cluster

variable (c : Cluster) (o : Overcommit)

/-- The rows of a VM that has been placed; the identifier is the primary key of `vms`. -/
def insert (g : Guest) : Cluster :=
  if c.guests.any (·.vmId = g.vmId) then c else { c with guests := g :: c.guests }

def reassign (vmId nodeId : String) : Cluster :=
  { c with guests := c.guests.map fun x => if x.vmId = vmId then { x with nodeId } else x }

def move (vmId : String) (among : NodeRow → Bool) : Cluster :=
  match c.guests.find? (·.vmId = vmId) with
  | none => c
  | some g =>
    match c.selectScheduledNode o (c.nodes.filter among) g.cpu g.memory "" [] g.antiAffinity with
    | none => c
    | some node => c.reassign vmId node.id

def create (vgpuFits : NodeRow → Bool) (vmId : String) (req : Request) : Cluster :=
  match c.placeVm o vgpuFits req, normalizeAntiAffinity req.antiAffinity with
  | .ok node, .ok group => c.insert ⟨vmId, req.cpu, req.memory, node.id, group⟩
  | _, _ => c

def step (vgpuFits : Cluster → NodeRow → Bool) : Step → Cluster
  | .create vmId req => c.create o (vgpuFits c) vmId req
  | .delete vmId => { c with guests := c.guests.filter (·.vmId ≠ vmId) }
  | .move vmId among => c.move o vmId among
  | .moveTo vmId nodeId => c.reassign vmId nodeId
  | .observe nodes labels cephMembers => { c with nodes, labels, cephMembers }

/-- A VM is moved without the scheduler only to a node that has no VM of its group. -/
def GroupFree (c : Cluster) : Step → Prop
  | .moveTo vmId nodeId => ∀ g ∈ c.guests, g.vmId = vmId →
      g.antiAffinity = "" ∨ g.antiAffinity ∉ c.antiAffinityGroupsByNode nodeId
  | _ => True

end Cluster

def Apart (a b : Guest) : Prop := a.antiAffinity ≠ "" → a.antiAffinity = b.antiAffinity → a.nodeId ≠ b.nodeId

structure Inv (c : Cluster) : Prop where
  apart : c.guests.Pairwise Apart
  ids : c.guests.Pairwise fun a b => a.vmId ≠ b.vmId
  trimmed : ∀ g ∈ c.guests, trim g.antiAffinity = g.antiAffinity

section Steps

variable {c : Cluster} {o : Overcommit}

private theorem apart_of_free {nodeId group : String} (h : group = "" ∨ group ∉ c.antiAffinityGroupsByNode nodeId)
    {b : Guest} (hb : b ∈ c.guests) (hne : group ≠ "") (hgroup : group = b.antiAffinity) : nodeId ≠ b.nodeId := by
  intro hnode
  refine h.resolve_left hne (List.mem_map.mpr ⟨b, List.mem_filter.mpr ⟨hb, ?_⟩, hgroup.symm⟩)
  simp [← hgroup, hne, hnode]

private theorem Inv.insert (h : Inv c) {g : Guest} (htrim : trim g.antiAffinity = g.antiAffinity)
    (hfree : g.antiAffinity = "" ∨ g.antiAffinity ∉ c.antiAffinityGroupsByNode g.nodeId) : Inv (c.insert g) := by
  unfold Cluster.insert
  split_ifs with hused
  · exact h
  · simp only [List.any_eq_true, decide_eq_true_eq, not_exists, not_and] at hused
    exact ⟨List.pairwise_cons.mpr ⟨fun b hb => apart_of_free hfree hb, h.apart⟩,
      List.pairwise_cons.mpr ⟨fun b hb => Ne.symm (hused b hb), h.ids⟩,
      List.forall_mem_cons.mpr ⟨htrim, h.trimmed⟩⟩

private theorem Inv.create (h : Inv c) (vgpuFits : NodeRow → Bool) (vmId : String) (req : Request) :
    Inv (c.create o vgpuFits vmId req) := by
  unfold Cluster.create
  split
  · rename_i node group hplace hgroup
    obtain ⟨labels, hlabels, -⟩ := bind_eq_ok.mp hplace
    exact h.insert (trim_group hgroup) (suits_of_placeVm hlabels hgroup hplace).group
  · exact h

private theorem Inv.reassign (h : Inv c) {vmId nodeId : String} (hfree : ∀ g ∈ c.guests, g.vmId = vmId →
    g.antiAffinity = "" ∨ g.antiAffinity ∉ c.antiAffinityGroupsByNode nodeId) : Inv (c.reassign vmId nodeId) := by
  refine ⟨List.pairwise_map.mpr ((h.apart.and h.ids).imp_of_mem ?_), List.pairwise_map.mpr (h.ids.imp ?_), ?_⟩
  · rintro a b ha hb ⟨hapart, hne⟩
    by_cases hav : a.vmId = vmId
    · -- the moved VM and one that stays
      rw [if_pos hav, if_neg fun hbv => hne (hav.trans hbv.symm)]
      exact apart_of_free (hfree a ha hav) hb
    · rw [if_neg hav]
      by_cases hbv : b.vmId = vmId
      · rw [if_pos hbv]
        intro hsome hgroup
        exact Ne.symm (apart_of_free (hfree b hb hbv) ha (hgroup ▸ hsome) hgroup.symm)
      · rw [if_neg hbv]
        exact hapart
  · intro a b hne
    split_ifs <;> exact hne
  · intro x hx
    obtain ⟨y, hy, rfl⟩ := List.mem_map.mp hx
    split_ifs <;> exact h.trimmed y hy

private theorem Inv.move (h : Inv c) (vmId : String) (among : NodeRow → Bool) : Inv (c.move o vmId among) := by
  unfold Cluster.move
  split
  · exact h
  · rename_i g hfind
    split
    · exact h
    · rename_i node hselect
      have hg := List.mem_of_find?_eq_some hfind
      have hid : g.vmId = vmId := by simpa using List.find?_some hfind
      obtain ⟨⟨-, -, he⟩, -⟩ := select_eq_some (h.trimmed g hg) hselect
      refine h.reassign fun x hx hxid => ?_
      rw [List.inj_on_of_nodup_map (List.pairwise_map.mpr h.ids) hx hg (hxid.trans hid.symm)]
      exact he.group

private theorem Inv.step (h : Inv c) (vgpuFits : Cluster → NodeRow → Bool) {a : Step} (ha : c.GroupFree a) :
    Inv (c.step o vgpuFits a) := by
  cases a with
  | create vmId req => exact h.create (vgpuFits c) vmId req
  | delete vmId =>
    exact ⟨h.apart.filter _, h.ids.filter _, fun g hg => h.trimmed g (List.mem_of_mem_filter hg)⟩
  | move vmId among => exact h.move vmId among
  | moveTo vmId nodeId => exact h.reassign ha
  | observe nodes labels cephMembers => exact ⟨h.apart, h.ids, h.trimmed⟩

end Steps

/-- When the steps come one after the other, no two VMs of one group are ever on one node, whatever happens to the
nodes, as long as the moves that do not ask the scheduler respect the groups. -/
theorem groups_stay_apart (o : Overcommit) (vgpuFits : Cluster → NodeRow → Bool) (nodes : List NodeRow)
    (labels : List NodeLabelRow) (cephMembers : List String) (steps : List Step)
    (hfree : Each (fun c => Cluster.step c o vgpuFits) Cluster.GroupFree ⟨nodes, labels, cephMembers, []⟩ steps) :
    Along (fun c => Cluster.step c o vgpuFits) (fun c => c.guests.Pairwise Apart) ⟨nodes, labels, cephMembers, []⟩
      steps := by
  have hstart : Inv ⟨nodes, labels, cephMembers, []⟩ := ⟨.nil, .nil, fun _ hg => absurd hg List.not_mem_nil⟩
  exact (along_of_each hstart (fun c a h ha => h.step vgpuFits ha) hfree).mono fun c h => h.apart

/-- Two VMs of a group on two nodes; one of them fails over to the node with its replica. -/
def replicaFailover : List Step :=
  [.create "vm-1" ⟨"n1", "", "lvm", 2, 4, [], "web", false, false⟩,
    .create "vm-2" ⟨"", "", "lvm", 2, 4, [], "web", false, false⟩, .moveTo "vm-1" "n3"]

theorem replica_failover_apart : Along (fun c => Cluster.step c ⟨id, id⟩ fun _ _ => false)
    (fun c => c.guests.Pairwise Apart) ⟨[nodeOf "n1", nodeOf "n2"], [], [], []⟩ replicaFailover := by
  refine groups_stay_apart _ _ _ _ _ _ ⟨trivial, trivial, ?_, trivial⟩
  unfold Cluster.GroupFree
  decide

end Kcore.Scheduler
