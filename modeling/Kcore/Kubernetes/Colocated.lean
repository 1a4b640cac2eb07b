import Mathlib.Data.List.Nodup
import Mathlib.Data.List.Sort
import Kcore.Lib.Checks
import Kcore.Text

/-!
# Kubernetes clusters that share a node

`generate_colocated_kubernetes_config` renders all clusters a node is a member of into one module. The cluster on API
port 6443 is the primary one and listens on the standard ports; every other cluster is nested below it and its ports
are the standard ones raised by what its API port has above 6443. `listenPorts` and `routerIds` are what the units of
`kcore-kubernetes.nix` then bind.

The ports of two members are compared through `moved`, the standard ports that follow the API port: two of them can
meet only when the API ports are at the distance of two standard ports, or when both are cut off at 65535
(`capped_eq`). With a primary cluster the code asks for API ports a multiple of 1000 above 6443; no two standard ports
are at such a distance, so it is enough that the API ports differ and that none is cut off (`spread_iff_of_primary`).
-/

namespace Kcore.Kubernetes

/-! ### The ports of a cluster -/

def saturatingAdd (a b : Nat) : Nat := min (a + b) 65535

structure KubernetesListenPorts where
  offset : Nat
  apiServer : Nat
  etcdClient : Nat
  etcdPeer : Nat
  kubelet : Nat
  kubeletHealthz : Nat
  virtualRouterId : Nat

def apiPort (apiEndpoint : String) : Nat :=
  let endpoint := trimStartMatches (trimStartMatches (trim apiEndpoint) "https://") "http://"
  ((rsplitOnce endpoint ':').bind fun (_, port) => parseU16 port).getD 6443

def kubernetesListenPorts (apiEndpoint : String) : KubernetesListenPorts :=
  let api := apiPort apiEndpoint
  let offset := api - 6443
  let vrid := saturatingAdd 40 (offset / 1000)
  { offset := offset
    apiServer := api
    etcdClient := saturatingAdd 2379 offset
    etcdPeer := saturatingAdd 2380 offset
    kubelet := saturatingAdd 10250 offset
    kubeletHealthz := saturatingAdd 10248 offset
    virtualRouterId := max 1 (min vrid 255) }

theorem apiPort_le (apiEndpoint : String) : apiPort apiEndpoint ≤ 65535 := by
  unfold apiPort
  simp only
  cases h : (rsplitOnce (trimStartMatches (trimStartMatches (trim apiEndpoint) "https://") "http://") ':').bind
      fun (_, port) => parseU16 port with
  | none => decide
  | some n =>
    obtain ⟨⟨_, port⟩, -, hport⟩ := Option.bind_eq_some_iff.mp h
    simp only [parseU16, parseUnsigned] at hport
    split at hport
    · split at hport
      · cases hport
        simp only [Option.getD_some]
        omega
      · cases hport
    · cases hport

/-! ### One member -/

/-- What `generate_colocated_kubernetes_config` reads of a member. `ifaces` are the interfaces of all nodes of the
cluster. -/
structure KubernetesMemberRender where
  clusterName : String
  role : String
  ifaces : List String
  apiServerEndpoint : String
  haEnabled : Bool
  ciliumLbIpPools : List String
  podSubnet : String

structure KubernetesInstanceLayout where
  apiServerPort : Nat
  etcdClientPort : Nat
  etcdPeerPort : Nat
  kubeletPort : Nat
  kubeletHealthzPort : Nat
  controllerManagerPort : Nat
  schedulerPort : Nat
  virtualRouterId : Nat
  podSubnet : String

inductive KubernetesRole where
  | worker
  | controlPlane
  deriving DecidableEq

structure KubernetesNodeConfig where
  role : KubernetesRole
  clusterName : String
  haEnabled : Bool
  «instance» : Option KubernetesInstanceLayout

inductive ColocateError where
  /-- no kubernetes clusters to render -/
  | noClusters
  /-- two clusters want the primary API port 6443 -/
  | twoPrimaries
  /-- cluster {} must use an API port at least 1000 above 6443 so its etcd and VRRP ids stay off the primary
  cluster -/
  | tooClose (clusterName : String)
  /-- cilium load balancer pool {} is not an IPv4 CIDR -/
  | pool (pool : String)
  /-- cilium interface {} is not a device name -/
  | iface (iface : String)

def validateCiliumIface (iface : String) : Except ColocateError Unit :=
  if iface ≠ "" ∧ iface.utf8ByteSize ≤ 15 ∧ ¬ startsWith iface "-" ∧
      iface.toList.all (fun c => c.isAlphanum || c = '_' || c = '.' || c = '-') then .ok ()
  else .error (.iface iface)

def validateCiliumPool (pool : String) : Except ColocateError Unit :=
  match splitOnce pool '/' with
  | none => .error (.pool pool)
  | some (addr, bits) =>
    let octets := splitAll addr '.'
    if octets.length ≠ 4 ∨ octets.any (· = "") then .error (.pool pool)
    else if octets.any fun octet => (parseU16 octet).all (255 < ·) then .error (.pool pool)
    else if (parseU8 bits).all (32 < ·) then .error (.pool pool)
    else .ok ()

def roleOf (role : String) : KubernetesRole := if role = "worker" then .worker else .controlPlane

def memberBlock (member : KubernetesMemberRender) (layout : Option KubernetesInstanceLayout) : KubernetesNodeConfig :=
  { role := roleOf member.role, clusterName := member.clusterName, haEnabled := member.haEnabled,
    «instance» := layout }

def generateKubernetesMember (member : KubernetesMemberRender) (layout : Option KubernetesInstanceLayout) :
    Except ColocateError KubernetesNodeConfig := do
  if layout.isNone then
    member.ciliumLbIpPools.forM validateCiliumPool
    member.ifaces.forM fun iface => validateCiliumIface (if iface = "" then "enp6s0" else iface)
  return memberBlock member layout

/-! ### The module of a node -/

structure KubernetesModule where
  primary : Option KubernetesNodeConfig
  additionalClusters : List (String × KubernetesNodeConfig)

def isPrimary (member : KubernetesMemberRender) : Bool :=
  (kubernetesListenPorts member.apiServerEndpoint).apiServer = 6443

def splitMembers : Option KubernetesMemberRender → List KubernetesMemberRender →
    Except ColocateError (Option KubernetesMemberRender × List KubernetesMemberRender)
  | primary, [] => .ok (primary, [])
  | primary, member :: members =>
    if isPrimary member then
      if primary.isSome then .error .twoPrimaries else splitMembers (some member) members
    else do
      let (primary, extras) ← splitMembers primary members
      return (primary, member :: extras)

def checkOffset (member : KubernetesMemberRender) : Except ColocateError Unit :=
  let offset := (kubernetesListenPorts member.apiServerEndpoint).offset
  if offset = 0 ∨ offset % 1000 ≠ 0 then .error (.tooClose member.clusterName) else .ok ()

def layoutOf (member : KubernetesMemberRender) : KubernetesInstanceLayout :=
  let ports := kubernetesListenPorts member.apiServerEndpoint
  { apiServerPort := ports.apiServer
    etcdClientPort := ports.etcdClient
    etcdPeerPort := ports.etcdPeer
    kubeletPort := ports.kubelet
    kubeletHealthzPort := ports.kubeletHealthz
    controllerManagerPort := saturatingAdd 10257 ports.offset
    schedulerPort := saturatingAdd 10259 ports.offset
    virtualRouterId := ports.virtualRouterId
    podSubnet := member.podSubnet }

def renderModule (primary : Option KubernetesMemberRender) (extras : List KubernetesMemberRender) :
    Except ColocateError KubernetesModule := do
  let primary ← primary.mapM fun member => generateKubernetesMember member none
  let additional ← extras.mapM fun member => do
    return (member.clusterName, ← generateKubernetesMember member (some (layoutOf member)))
  return { primary := primary, additionalClusters := additional }

def generateColocatedKubernetesConfig (members : List KubernetesMemberRender) :
    Except ColocateError KubernetesModule := do
  if members.isEmpty then throw .noClusters
  let (primary, extras) ← splitMembers none members
  let extras := extras.insertionSort fun a b => a.clusterName ≤ b.clusterName
  if primary.isSome then extras.forM checkOffset
  renderModule primary extras

/-! ### What the units listen on -/

/-- The ports `kcore-kubernetes.nix` gives the units of the primary cluster. -/
def standardLayout : KubernetesInstanceLayout :=
  { apiServerPort := 6443, etcdClientPort := 2379, etcdPeerPort := 2380, kubeletPort := 10250,
    kubeletHealthzPort := 10248, controllerManagerPort := 10257, schedulerPort := 10259, virtualRouterId := 40,
    podSubnet := "" }

def listenPorts (config : KubernetesNodeConfig) : List Nat :=
  let l := config.instance.getD standardLayout
  match config.role with
  | .worker => [l.kubeletPort, l.kubeletHealthzPort]
  | .controlPlane =>
    [l.apiServerPort, l.etcdClientPort, l.etcdPeerPort, l.kubeletPort, l.kubeletHealthzPort,
      l.controllerManagerPort, l.schedulerPort]

def routerIds (config : KubernetesNodeConfig) : List Nat :=
  if config.role = .controlPlane ∧ config.haEnabled then [(config.instance.getD standardLayout).virtualRouterId]
  else []

def KubernetesModule.clusters (m : KubernetesModule) : List KubernetesNodeConfig :=
  m.primary.toList ++ m.additionalClusters.map (·.2)

/-- All ports of the node are valid and bound once, and so are the virtual router ids. -/
structure Coexist (m : KubernetesModule) : Prop where
  ports_valid : ∀ p ∈ m.clusters.flatMap listenPorts, 1 ≤ p ∧ p ≤ 65535
  ports_nodup : (m.clusters.flatMap listenPorts).Nodup
  ids_valid : ∀ i ∈ m.clusters.flatMap routerIds, 1 ≤ i ∧ i ≤ 255
  ids_nodup : (m.clusters.flatMap routerIds).Nodup

/-! ### What a member becomes -/

section Rendered

variable {member : KubernetesMemberRender} {members extras : List KubernetesMemberRender}
  {primary before : Option KubernetesMemberRender}

def blockOf (member : KubernetesMemberRender) : KubernetesNodeConfig :=
  memberBlock member (if isPrimary member then none else some (layoutOf member))

theorem splitMembers_eq_ok (h : splitMembers before members = .ok (primary, extras)) :
    (before.toList ++ members).Perm (primary.toList ++ extras) ∧ (∀ m ∈ extras, isPrimary m = false) ∧
      (∀ m ∈ primary, m ∈ before ∨ isPrimary m = true) := by
  induction members generalizing before extras with
  | nil =>
    cases h
    refine ⟨by simp, by simp, ?_⟩
    intro m hm
    exact Or.inl hm
  | cons m ms ih =>
    simp only [splitMembers] at h
    split at h
    · next hm =>
      split at h
      · cases h
      · next hnone =>
        obtain ⟨hperm, hextras, hprimary⟩ := ih h
        have hbefore : before = none := by simpa using hnone
        subst hbefore
        refine ⟨by simpa using hperm, hextras, ?_⟩
        intro m' hm'
        right
        rcases hprimary m' hm' with hsome | hp
        · cases hsome
          exact hm
        · exact hp
    · next hm =>
      obtain ⟨⟨primary', extras'⟩, hrest, heq⟩ := Checks.bind_eq_ok.mp h
      obtain ⟨rfl, rfl⟩ : primary' = primary ∧ m :: extras' = extras := by simpa using Except.ok.inj heq
      obtain ⟨hperm, hextras, hprimary⟩ := ih hrest
      refine ⟨?_, ?_, hprimary⟩
      · have hmid : (before.toList ++ m :: ms).Perm (m :: (before.toList ++ ms)) := List.perm_middle
        have hmid' : (primary'.toList ++ m :: extras').Perm (m :: (primary'.toList ++ extras')) := List.perm_middle
        exact hmid.trans ((hperm.cons m).trans hmid'.symm)
      · intro m' hm'
        rcases List.mem_cons.mp hm' with rfl | hm'
        · simpa using hm
        · exact hextras m' hm'

theorem generateKubernetesMember_eq_ok {layout : Option KubernetesInstanceLayout} {config : KubernetesNodeConfig}
    (h : generateKubernetesMember member layout = .ok config) :
    config = memberBlock member layout := by
  unfold generateKubernetesMember at h
  split at h
  · obtain ⟨_, -, h⟩ := Checks.bind_eq_ok.mp h
    obtain ⟨_, -, h⟩ := Checks.bind_eq_ok.mp h
    cases h
    rfl
  · cases h
    rfl

theorem mapM_additional (extras : List KubernetesMemberRender) :
    (extras.mapM fun member => do
      return (member.clusterName, ← generateKubernetesMember member (some (layoutOf member)))) =
      .ok (extras.map fun member => (member.clusterName, memberBlock member (some (layoutOf member)))) := by
  induction extras with
  | nil => rfl
  | cons m ms ih =>
    rw [List.mapM_cons, ih]
    rfl

theorem renderModule_eq_ok {m : KubernetesModule} (hprimary : ∀ x ∈ primary, isPrimary x = true)
    (hextras : ∀ x ∈ extras, isPrimary x = false) (h : renderModule primary extras = .ok m) :
    m.clusters = (primary.toList ++ extras).map blockOf := by
  unfold renderModule at h
  obtain ⟨config, hconfig, h⟩ := Checks.bind_eq_ok.mp h
  rw [mapM_additional] at h
  cases h
  have hnested : (extras.map fun x => memberBlock x (some (layoutOf x))) = extras.map blockOf := by
    refine List.map_congr_left fun x hx => ?_
    simp [blockOf, hextras x hx]
  have hfirst : config.toList = primary.toList.map blockOf := by
    cases primary with
    | none =>
      cases hconfig
      rfl
    | some p =>
      obtain ⟨block, hblock, hconfig⟩ := Checks.bind_eq_ok.mp hconfig
      cases hconfig
      rw [generateKubernetesMember_eq_ok hblock]
      simp [blockOf, hprimary p rfl]
  simp only [KubernetesModule.clusters, List.map_map, List.map_append, hfirst, ← hnested]
  rfl

/-- An accepted list is rendered member by member, in some order. With a primary cluster among them the offsets of
the others have been checked. -/
theorem generate_eq_ok {m : KubernetesModule} (h : generateColocatedKubernetesConfig members = .ok m) :
    (∃ shown : List KubernetesMemberRender, shown.Perm members ∧ m.clusters = shown.map blockOf) ∧
      ((∃ p ∈ members, isPrimary p = true) → ∀ x ∈ members, isPrimary x = false → checkOffset x = .ok ()) := by
  unfold generateColocatedKubernetesConfig at h
  split at h
  · cases h
  obtain ⟨⟨primary, extras⟩, hsplit, h⟩ := Checks.bind_eq_ok.mp h
  obtain ⟨hperm, hextras, hprimary⟩ := splitMembers_eq_ok hsplit
  simp only [Option.toList_none, List.nil_append] at hperm
  have hprimary' : ∀ x ∈ primary, isPrimary x = true := by
    intro x hx
    rcases hprimary x hx with hnone | hx
    · cases hnone
    · exact hx
  have hsorted := List.perm_insertionSort (fun a b => a.clusterName ≤ b.clusterName) extras
  have hextras' : ∀ x ∈ extras.insertionSort (fun a b => a.clusterName ≤ b.clusterName), isPrimary x = false :=
    fun x hx => hextras x (hsorted.mem_iff.mp hx)
  have hshown := (hsorted.append_left primary.toList).trans hperm.symm
  simp only at h
  split at h
  · obtain ⟨_, hchecked, h⟩ := Checks.bind_eq_ok.mp h
    refine ⟨⟨_, hshown, renderModule_eq_ok hprimary' hextras' h⟩, ?_⟩
    intro _ x hx hxextra
    have hxmem : x ∈ primary.toList ++ extras := hperm.mem_iff.mp hx
    rcases List.mem_append.mp hxmem with hx | hx
    · have hp := hprimary' x (by simpa using hx)
      rw [hxextra] at hp
      cases hp
    · exact (Checks.forM_eq_ok.mp hchecked) x (hsorted.mem_iff.mpr hx)
  · next hnone =>
    refine ⟨⟨_, hshown, renderModule_eq_ok hprimary' hextras' h⟩, ?_⟩
    rintro ⟨p, hp, hpp⟩
    have hpmem : p ∈ primary.toList ++ extras := hperm.mem_iff.mp hp
    rw [Option.not_isSome_iff_eq_none.mp hnone] at hpmem
    have hpextra := hextras p (by simpa using hpmem)
    rw [hpp] at hpextra
    cases hpextra

end Rendered

/-! ### When the ports of two members meet -/

section Ports

attribute [local irreducible] apiPort

def KubernetesMemberRender.api (m : KubernetesMemberRender) : Nat := apiPort m.apiServerEndpoint

def KubernetesMemberRender.excess (m : KubernetesMemberRender) : Nat := m.api - 6443

def moved (m : KubernetesMemberRender) : List Nat :=
  match roleOf m.role with
  | .worker => [10250, 10248]
  | .controlPlane => (if m.api < 6443 then [] else [6443]) ++ [2379, 2380, 10250, 10248, 10257, 10259]

def low (m : KubernetesMemberRender) : List Nat :=
  match roleOf m.role with
  | .worker => []
  | .controlPlane => if m.api < 6443 then [m.api] else []

variable {m n : KubernetesMemberRender}

theorem saturatingAdd_of_le {a b : Nat} (h : a + b ≤ 65535) : saturatingAdd a b = a + b := Nat.min_eq_left h

theorem saturatingAdd_of_ge {a b : Nat} (h : 65535 ≤ a + b) : saturatingAdd a b = 65535 := Nat.min_eq_right h

/-- Two moved ports are the same port when they are moved to the same number, or when both are cut off. -/
theorem capped_eq {b c e f : Nat} (h : saturatingAdd b e = saturatingAdd c f) :
    b + e = c + f ∨ 65535 ≤ b + e ∧ 65535 ≤ c + f := by
  unfold saturatingAdd at h
  omega

theorem layoutOf_primary (h : m.api = 6443) : layoutOf m = { standardLayout with podSubnet := m.podSubnet } := by
  have hports : kubernetesListenPorts m.apiServerEndpoint =
      { offset := 0, apiServer := 6443, etcdClient := 2379, etcdPeer := 2380, kubelet := 10250,
        kubeletHealthz := 10248, virtualRouterId := 40 } := by
    unfold kubernetesListenPorts
    rw [show apiPort m.apiServerEndpoint = 6443 from h]
    rfl
  unfold layoutOf
  rw [hports]
  rfl

theorem isPrimary_iff : isPrimary m = true ↔ m.api = 6443 := by
  have hapi : (kubernetesListenPorts m.apiServerEndpoint).apiServer = m.api := rfl
  unfold isPrimary
  rw [hapi]
  exact decide_eq_true_iff

theorem blockOf_layout (m : KubernetesMemberRender) :
    listenPorts (blockOf m) = listenPorts (memberBlock m (some (layoutOf m))) ∧
      routerIds (blockOf m) = routerIds (memberBlock m (some (layoutOf m))) := by
  unfold blockOf
  by_cases h : m.api = 6443
  · rw [if_pos (isPrimary_iff.mpr h), layoutOf_primary h]
    exact ⟨rfl, rfl⟩
  · rw [if_neg (mt isPrimary_iff.mp h)]
    exact ⟨rfl, rfl⟩

theorem listenPorts_blockOf (m : KubernetesMemberRender) :
    listenPorts (blockOf m) = low m ++ (moved m).map fun b => saturatingAdd b m.excess := by
  have hle : m.api ≤ 65535 := apiPort_le m.apiServerEndpoint
  have hlayout : layoutOf m =
      { apiServerPort := m.api, etcdClientPort := saturatingAdd 2379 m.excess,
        etcdPeerPort := saturatingAdd 2380 m.excess, kubeletPort := saturatingAdd 10250 m.excess,
        kubeletHealthzPort := saturatingAdd 10248 m.excess,
        controllerManagerPort := saturatingAdd 10257 m.excess, schedulerPort := saturatingAdd 10259 m.excess,
        virtualRouterId := (layoutOf m).virtualRouterId, podSubnet := m.podSubnet } := rfl
  rw [(blockOf_layout m).1, hlayout]
  unfold listenPorts memberBlock low moved
  cases roleOf m.role with
  | worker => rfl
  | controlPlane =>
    by_cases hlow : m.api < 6443
    · simp [hlow]
    · have hapi : saturatingAdd 6443 m.excess = m.api := by
        have he : m.excess = m.api - 6443 := rfl
        rw [saturatingAdd_of_le] <;> omega
      simp [hlow, hapi]

/-- The ports of a member are valid and its own: at most the highest of them is cut off at 65535, and an API port
below the standard one is neither 0 nor a port of etcd. -/
def Fits (m : KubernetesMemberRender) : Prop :=
  match roleOf m.role with
  | .worker => m.api ≤ 61729
  | .controlPlane => m.api ≤ 61720 ∧ m.api ≠ 0 ∧ m.api ≠ 2379 ∧ m.api ≠ 2380

def ReachesTop (m : KubernetesMemberRender) : Prop :=
  match roleOf m.role with
  | .worker => 61728 ≤ m.api
  | .controlPlane => 61719 ≤ m.api

/-- The ports of two members do not meet: their API ports are not at the distance of two standard ports, not both
reach the end of the port numbers, and neither API port, where it is a low one, is a moved port of the other. -/
structure PortsApart (m n : KubernetesMemberRender) : Prop where
  moved : ∀ b ∈ moved m, ∀ c ∈ moved n, b + m.excess ≠ c + n.excess
  top : ¬ (ReachesTop m ∧ ReachesTop n)
  low_left : ∀ p ∈ low m, ∀ c ∈ Kubernetes.moved n, p ≠ c + n.excess
  low_right : ∀ p ∈ low n, ∀ b ∈ Kubernetes.moved m, p ≠ b + m.excess

theorem mem_low {p : Nat} (hp : p ∈ low m) : p = m.api ∧ m.api < 6443 := by
  unfold low at hp
  split at hp
  · cases hp
  · split at hp
    · exact ⟨by simpa using hp, by assumption⟩
    · cases hp

theorem moved_subset {b : Nat} (hb : b ∈ moved m) : b ∈ [6443, 2379, 2380, 10250, 10248, 10257, 10259] := by
  unfold moved at hb
  split at hb
  · rcases List.mem_pair.mp hb with rfl | rfl <;> decide
  · split at hb
    · exact List.mem_cons_of_mem _ hb
    · exact hb

theorem kubelet_mem_moved (m : KubernetesMemberRender) : 10250 ∈ moved m := by
  unfold moved
  split <;> simp

/-- At the end of the port numbers a member that fits has its highest port only. -/
theorem reachesTop_of_mem {b : Nat} (hm : Fits m) (hb : b ∈ moved m) (htop : 65535 ≤ b + m.excess) :
    ReachesTop m := by
  have he : m.excess = m.api - 6443 := rfl
  cases hrole : roleOf m.role with
  | worker =>
    simp only [Fits, moved, ReachesTop, hrole, List.mem_cons, List.not_mem_nil, or_false] at hm hb ⊢
    omega
  | controlPlane =>
    simp only [Fits, moved, ReachesTop, hrole] at hm hb ⊢
    split at hb <;> simp at hb <;> omega

theorem top_mem_of_reachesTop (h : ReachesTop m) : ∃ b ∈ moved m, saturatingAdd b m.excess = 65535 := by
  have he : m.excess = m.api - 6443 := rfl
  cases hrole : roleOf m.role with
  | worker =>
    simp only [ReachesTop, hrole] at h
    exact ⟨10250, kubelet_mem_moved m, saturatingAdd_of_ge (by omega)⟩
  | controlPlane =>
    simp only [ReachesTop, hrole] at h
    exact ⟨10259, by simp [moved, hrole], saturatingAdd_of_ge (by omega)⟩

theorem mem_listenPorts {p : Nat} :
    p ∈ listenPorts (blockOf m) ↔ p ∈ low m ∨ ∃ b ∈ moved m, saturatingAdd b m.excess = p := by
  rw [listenPorts_blockOf, List.mem_append, List.mem_map]

theorem portsApart_of_disjoint (h : List.Disjoint (listenPorts (blockOf m)) (listenPorts (blockOf n))) :
    PortsApart m n := by
  have hboth : ∀ p, p ∈ listenPorts (blockOf m) → p ∈ listenPorts (blockOf n) → False := fun p hm hn => h hm hn
  simp only [mem_listenPorts] at hboth
  refine ⟨?_, ?_, ?_, ?_⟩
  · intro b hb c hc heq
    refine hboth (saturatingAdd b m.excess) (Or.inr ⟨b, hb, rfl⟩) (Or.inr ⟨c, hc, ?_⟩)
    unfold saturatingAdd
    rw [heq]
  · rintro ⟨hm, hn⟩
    exact hboth 65535 (Or.inr (top_mem_of_reachesTop hm)) (Or.inr (top_mem_of_reachesTop hn))
  · intro p hp c hc heq
    obtain ⟨rfl, hlow⟩ := mem_low hp
    exact hboth m.api (Or.inl hp) (Or.inr ⟨c, hc, by rw [saturatingAdd_of_le] <;> omega⟩)
  · intro p hp b hb heq
    obtain ⟨rfl, hlow⟩ := mem_low hp
    exact hboth n.api (Or.inr ⟨b, hb, by rw [saturatingAdd_of_le] <;> omega⟩) (Or.inl hp)

theorem disjoint_of_portsApart (hm : Fits m) (hn : Fits n) (h : PortsApart m n) :
    List.Disjoint (listenPorts (blockOf m)) (listenPorts (blockOf n)) := by
  intro p hpm hpn
  rw [mem_listenPorts] at hpm hpn
  rcases hpm with hpm | ⟨b, hb, rfl⟩
  · rcases hpn with hpn | ⟨c, hc, hcp⟩
    · -- Two low API ports: nothing is moved, so the kubelets meet.
      have hmlow := (mem_low hpm).2
      have hnlow := (mem_low hpn).2
      refine h.moved 10250 (kubelet_mem_moved m) 10250 (kubelet_mem_moved n) ?_
      unfold KubernetesMemberRender.excess
      omega
    · refine h.low_left p hpm c hc ?_
      have hlow := mem_low hpm
      unfold saturatingAdd at hcp
      omega
  · rcases hpn with hpn | ⟨c, hc, hcp⟩
    · refine h.low_right _ hpn b hb ?_
      have hlow := mem_low hpn
      unfold saturatingAdd at hlow ⊢
      omega
    · rcases capped_eq hcp with heq | ⟨hc', hb'⟩
      · exact h.moved b hb c hc heq.symm
      · exact h.top ⟨reachesTop_of_mem hm hb hb', reachesTop_of_mem hn hc hc'⟩

/-- What the ports of one member need: the two highest ports are not both cut off. -/
theorem fits_of_nodup (hnodup : (listenPorts (blockOf m)).Nodup)
    (hvalid : ∀ p ∈ listenPorts (blockOf m), 1 ≤ p ∧ p ≤ 65535) : Fits m := by
  have he : m.excess = m.api - 6443 := rfl
  rw [listenPorts_blockOf] at hnodup hvalid
  have hpair : ∀ {b c : Nat}, [b, c].Sublist (moved m) → saturatingAdd b m.excess ≠ saturatingAdd c m.excess := by
    intro b c hbc
    have hnd := (hbc.map fun b => saturatingAdd b m.excess).nodup (List.Nodup.of_append_right hnodup)
    simpa using hnd
  have hlow : ∀ {b : Nat}, b ∈ moved m → m.api ∈ low m → m.api ≠ saturatingAdd b m.excess := by
    intro b hb hapi heq
    exact List.disjoint_of_nodup_append hnodup hapi (heq ▸ List.mem_map_of_mem hb)
  cases hrole : roleOf m.role with
  | worker =>
    have htop : saturatingAdd 10250 m.excess ≠ saturatingAdd 10248 m.excess := hpair (by simp [moved, hrole])
    simp only [Fits, hrole]
    unfold saturatingAdd at htop
    omega
  | controlPlane =>
    have htop : saturatingAdd 10257 m.excess ≠ saturatingAdd 10259 m.excess := hpair (by
      simp only [moved, hrole]
      exact List.Sublist.trans (by decide) (List.sublist_append_right _ [2379, 2380, 10250, 10248, 10257, 10259]))
    simp only [Fits, hrole]
    unfold saturatingAdd at htop
    by_cases hsmall : m.api < 6443
    · have hmem : m.api ∈ low m := by simp [low, hrole, hsmall]
      have hclient := hlow (b := 2379) (by simp [moved, hrole]) hmem
      have hpeer := hlow (b := 2380) (by simp [moved, hrole]) hmem
      have hpos := (hvalid m.api (List.mem_append_left _ hmem)).1
      unfold saturatingAdd at hclient hpeer
      omega
    · omega

theorem cut_off_unique {b c : Nat} (hm : Fits m) (hb : b ∈ moved m) (hc : c ∈ moved m) (hb' : 65535 ≤ b + m.excess)
    (hc' : 65535 ≤ c + m.excess) : b = c := by
  have he : m.excess = m.api - 6443 := rfl
  cases hrole : roleOf m.role with
  | worker =>
    simp only [Fits, moved, hrole, List.mem_cons, List.not_mem_nil, or_false] at hm hb hc
    omega
  | controlPlane =>
    have htop : ∀ {b : Nat}, b ∈ moved m → 65535 ≤ b + m.excess → b = 10259 := by
      intro b hb hb'
      simp only [Fits, moved, hrole] at hm hb
      split at hb <;> simp at hb <;> omega
    rw [htop hb hb', htop hc hc']

theorem nodup_of_fits (hm : Fits m) : (listenPorts (blockOf m)).Nodup := by
  have he : m.excess = m.api - 6443 := rfl
  rw [listenPorts_blockOf]
  refine List.Nodup.append ?_ (List.Nodup.map_on ?_ ?_) ?_
  · unfold low
    split
    · exact List.nodup_nil
    · split <;> simp
  · intro b hb c hc heq
    rcases capped_eq heq with heq | ⟨hb', hc'⟩
    · omega
    · exact cut_off_unique hm hb hc hb' hc'
  · unfold moved
    split
    · decide
    · split <;> decide
  · -- A low API port is neither of the etcd ports, and the others are above it.
    intro p hp hmoved
    obtain ⟨rfl, hlow⟩ := mem_low hp
    obtain ⟨b, hb, hbp⟩ := List.mem_map.mp hmoved
    have hstay : b = m.api := by
      unfold saturatingAdd at hbp
      omega
    cases hrole : roleOf m.role with
    | worker => simp [low, hrole] at hp
    | controlPlane =>
      simp only [Fits, moved, hrole, hlow, if_true] at hm hb
      simp at hb
      omega

theorem valid_of_fits (hm : Fits m) : ∀ p ∈ listenPorts (blockOf m), 1 ≤ p ∧ p ≤ 65535 := by
  intro p hp
  rcases mem_listenPorts.mp hp with hp | ⟨b, hb, rfl⟩
  · obtain ⟨rfl, hlow⟩ := mem_low hp
    cases hrole : roleOf m.role with
    | worker => simp [low, hrole] at hp
    | controlPlane =>
      simp only [Fits, hrole] at hm
      omega
  · have hpos : ∀ b ∈ [6443, 2379, 2380, 10250, 10248, 10257, 10259], 0 < b := by decide
    have hb' := hpos b (moved_subset hb)
    unfold saturatingAdd
    omega

def HasVip (m : KubernetesMemberRender) : Prop := roleOf m.role = .controlPlane ∧ m.haEnabled = true

theorem routerIds_blockOf (m : KubernetesMemberRender) :
    routerIds (blockOf m) =
      if roleOf m.role = .controlPlane ∧ m.haEnabled = true then [40 + m.excess / 1000] else [] := by
  have hle : m.api ≤ 65535 := apiPort_le m.apiServerEndpoint
  have he : m.excess = m.api - 6443 := rfl
  have hid : (layoutOf m).virtualRouterId = 40 + m.excess / 1000 := by
    change max 1 (min (saturatingAdd 40 (m.excess / 1000)) 255) = _
    unfold saturatingAdd
    omega
  rw [(blockOf_layout m).2, ← hid]
  rfl

theorem disjoint_routerIds :
    List.Disjoint (routerIds (blockOf m)) (routerIds (blockOf n)) ↔
      (HasVip m → HasVip n → m.excess / 1000 ≠ n.excess / 1000) := by
  rw [routerIds_blockOf, routerIds_blockOf]
  unfold HasVip
  split <;> split <;> simp [*]
  exact not_congr eq_comm

theorem routerIds_valid (m : KubernetesMemberRender) :
    (routerIds (blockOf m)).Nodup ∧ ∀ i ∈ routerIds (blockOf m), 1 ≤ i ∧ i ≤ 255 := by
  have hle : m.api ≤ 65535 := apiPort_le m.apiServerEndpoint
  have he : m.excess = m.api - 6443 := rfl
  rw [routerIds_blockOf]
  split
  · refine ⟨List.nodup_singleton _, fun i hi => ?_⟩
    rw [List.mem_singleton] at hi
    omega
  · simp

structure Apart (m n : KubernetesMemberRender) : Prop where
  ports : PortsApart m n
  ids : HasVip m → HasVip n → m.excess / 1000 ≠ n.excess / 1000

structure Spread (members : List KubernetesMemberRender) : Prop where
  fits : ∀ m ∈ members, Fits m
  apart : members.Pairwise Apart

end Ports

/-! ### All members of a node -/

section Node

variable {members : List KubernetesMemberRender}

/-- What the units of a node bind, whatever order its members are rendered in. -/
theorem coexist_iff {k : KubernetesModule} {shown : List KubernetesMemberRender} (hshown : shown.Perm members)
    (hk : k.clusters = shown.map blockOf) :
    Coexist k ↔
      (∀ m ∈ members, (listenPorts (blockOf m)).Nodup ∧ ∀ p ∈ listenPorts (blockOf m), 1 ≤ p ∧ p ≤ 65535) ∧
      members.Pairwise fun m n => List.Disjoint (listenPorts (blockOf m)) (listenPorts (blockOf n)) ∧
        List.Disjoint (routerIds (blockOf m)) (routerIds (blockOf n)) := by
  have hbound : ∀ f : KubernetesNodeConfig → List Nat,
      (k.clusters.flatMap f).Perm (members.flatMap fun m => f (blockOf m)) := by
    intro f
    rw [hk, List.flatMap_map]
    exact hshown.flatMap_right _
  have hmem : ∀ (f : KubernetesNodeConfig → List Nat) (x : Nat),
      x ∈ k.clusters.flatMap f ↔ ∃ m ∈ members, x ∈ f (blockOf m) := by
    intro f x
    rw [(hbound f).mem_iff, List.mem_flatMap]
  have hnodup : ∀ f : KubernetesNodeConfig → List Nat, (k.clusters.flatMap f).Nodup ↔
      (∀ m ∈ members, (f (blockOf m)).Nodup) ∧
        members.Pairwise fun m n => List.Disjoint (f (blockOf m)) (f (blockOf n)) := by
    intro f
    rw [(hbound f).nodup_iff, List.nodup_flatMap]
  constructor
  · intro h
    have hports := (hnodup listenPorts).mp h.ports_nodup
    have hids := (hnodup routerIds).mp h.ids_nodup
    refine ⟨fun m hm => ⟨hports.1 m hm, fun p hp => ?_⟩, hports.2.and hids.2⟩
    exact h.ports_valid p ((hmem listenPorts p).mpr ⟨m, hm, hp⟩)
  · rintro ⟨hown, hpairs⟩
    refine ⟨fun p hp => ?_, (hnodup listenPorts).mpr ⟨fun m hm => (hown m hm).1, hpairs.imp And.left⟩, fun i hi => ?_,
      (hnodup routerIds).mpr ⟨fun m _ => (routerIds_valid m).1, hpairs.imp And.right⟩⟩
    · obtain ⟨m, hm, hp⟩ := (hmem listenPorts p).mp hp
      exact (hown m hm).2 p hp
    · obtain ⟨m, -, hi⟩ := (hmem routerIds i).mp hi
      exact (routerIds_valid m).2 i hi

theorem multiple_of_primary {k : KubernetesModule} (h : generateColocatedKubernetesConfig members = .ok k)
    (hprimary : ∃ p ∈ members, p.api = 6443) : ∀ m ∈ members, 6443 ≤ m.api ∧ m.excess % 1000 = 0 := by
  obtain ⟨p, hp, hapi⟩ := hprimary
  have hchecked := (generate_eq_ok h).2 ⟨p, hp, isPrimary_iff.mpr hapi⟩
  intro m hm
  have he : m.excess = m.api - 6443 := rfl
  by_cases hm6443 : m.api = 6443
  · omega
  · have hoffset := hchecked m hm (Bool.eq_false_iff.mpr (mt isPrimary_iff.mp hm6443))
    unfold checkOffset at hoffset
    simp only at hoffset
    split at hoffset
    · cases hoffset
    · next hgood =>
      have hsame : (kubernetesListenPorts m.apiServerEndpoint).offset = m.excess := rfl
      rw [hsame] at hgood
      omega

theorem moved_eq_of_modEq {m n : KubernetesMemberRender} {b c : Nat} (hb : b ∈ moved m) (hc : c ∈ moved n)
    (hm : m.excess % 1000 = 0) (hn : n.excess % 1000 = 0) (h : b + m.excess = c + n.excess) : b = c := by
  have hmod : b % 1000 = c % 1000 := by omega
  have hinj : ∀ b ∈ [6443, 2379, 2380, 10250, 10248, 10257, 10259],
      ∀ c ∈ [6443, 2379, 2380, 10250, 10248, 10257, 10259], b % 1000 = c % 1000 → b = c := by decide
  exact hinj b (moved_subset hb) c (moved_subset hc) hmod

/-- With a primary cluster on the node it is enough that the API ports differ and that none is above 61443. -/
theorem spread_iff_of_primary {k : KubernetesModule} (h : generateColocatedKubernetesConfig members = .ok k)
    (hprimary : ∃ p ∈ members, p.api = 6443) :
    Spread members ↔ (members.map KubernetesMemberRender.api).Nodup ∧ ∀ m ∈ members, m.api ≤ 61443 := by
  have hmultiple := multiple_of_primary h hprimary
  have hexcess : ∀ m : KubernetesMemberRender, m.excess = m.api - 6443 := fun _ => rfl
  constructor
  · rintro ⟨hfits, hapart⟩
    constructor
    · refine List.pairwise_map.mpr (hapart.imp ?_)
      intro m n hmn heq
      refine hmn.ports.moved 10250 (kubelet_mem_moved m) 10250 (kubelet_mem_moved n) ?_
      rw [hexcess, hexcess, heq]
    · intro m hm
      have hle : m.api ≤ 61729 := by
        have hfit := hfits m hm
        unfold Fits at hfit
        split at hfit
        · exact hfit
        · exact hfit.1.trans (by decide)
      have hm' := hmultiple m hm
      have he := hexcess m
      omega
  · rintro ⟨hnodup, hle⟩
    have hhigh : ∀ m ∈ members, low m = [] ∧ ¬ ReachesTop m ∧ Fits m := by
      intro m hm
      have hm' := (hmultiple m hm).1
      have hm'' := hle m hm
      unfold low ReachesTop Fits
      split <;> simp <;> omega
    refine ⟨fun m hm => (hhigh m hm).2.2, (List.pairwise_map.mp hnodup).imp_of_mem ?_⟩
    intro m n hm hn hne
    have hm' := hmultiple m hm
    have hn' := hmultiple n hn
    have hme := hexcess m
    have hne' := hexcess n
    refine ⟨⟨?_, ?_, ?_, ?_⟩, ?_⟩
    · intro b hb c hc heq
      have hbc := moved_eq_of_modEq hb hc hm'.2 hn'.2 heq
      omega
    · exact fun htop => (hhigh m hm).2.1 htop.1
    · rw [(hhigh m hm).1]
      exact fun p hp => nomatch hp
    · rw [(hhigh n hn).1]
      exact fun p hp => nomatch hp
    · intro _ _ hids
      omega

theorem coexist_iff_spread {k : KubernetesModule} (h : generateColocatedKubernetesConfig members = .ok k) :
    Coexist k ↔ Spread members := by
  obtain ⟨⟨shown, hshown, hk⟩, -⟩ := generate_eq_ok h
  rw [coexist_iff hshown hk]
  constructor
  · rintro ⟨hown, hpairs⟩
    refine ⟨fun m hm => fits_of_nodup (hown m hm).1 (hown m hm).2, hpairs.imp ?_⟩
    rintro m n ⟨hports, hids⟩
    exact ⟨portsApart_of_disjoint hports, disjoint_routerIds.mp hids⟩
  · rintro ⟨hfits, hapart⟩
    refine ⟨fun m hm => ⟨nodup_of_fits (hfits m hm), valid_of_fits (hfits m hm)⟩, hapart.imp_of_mem ?_⟩
    intro m n hm hn hmn
    exact ⟨disjoint_of_portsApart (hfits m hm) (hfits n hn) hmn.ports, disjoint_routerIds.mpr hmn.ids⟩

def highlyAvailable (name endpoint : String) : KubernetesMemberRender :=
  { clusterName := name, role := "control-plane", ifaces := ["eno1"], apiServerEndpoint := endpoint,
    haEnabled := true, ciliumLbIpPools := [], podSubnet := "" }

/-- Two clusters at the standard distance share a node. -/
theorem two_clusters_coexist :
    ∃ k, generateColocatedKubernetesConfig
        [highlyAvailable "prod" "10.0.0.5:6443", highlyAvailable "dev" "10.0.0.6:7443"] = .ok k ∧ Coexist k := by
  obtain ⟨k, hk⟩ : ∃ k, generateColocatedKubernetesConfig
      [highlyAvailable "prod" "10.0.0.5:6443", highlyAvailable "dev" "10.0.0.6:7443"] = .ok k := ⟨_, rfl⟩
  refine ⟨k, hk, (coexist_iff_spread hk).mpr ?_⟩
  exact (spread_iff_of_primary hk ⟨_, List.mem_cons_self, by decide⟩).mpr (by decide)

/-- A cluster with a high API port binds its kubelet and its health check to port 65535. -/
theorem high_api_port_collides :
    ∃ k, generateColocatedKubernetesConfig
        [highlyAvailable "prod" "10.0.0.5:6443", highlyAvailable "dev" "10.0.0.6:62443"] = .ok k ∧ ¬ Coexist k := by
  refine ⟨_, rfl, fun h => ?_⟩
  exact absurd h.ports_nodup (by decide)

end Node

end Kcore.Kubernetes
