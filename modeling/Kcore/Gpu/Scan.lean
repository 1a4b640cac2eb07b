import Mathlib.Data.List.Dedup
import Mathlib.Data.List.Sort
import Kcore.Gpu.Device

/-!
# The scan of the PCI tree

`classify` turns the PCI functions of a node into its inventory: GPUs, NICs and NVMe disks with their companions, one
raw entry for each group that is left, and the slices of the cards that are split. Every pass notes in `claimed` the
functions it has handed out.

An entry is assignable only if its whole IOMMU group is in its slot (`assignment_eq`), so its functions are always
those of one group. `Inv` says that for everything found so far, and that these functions are claimed; an entry is
built for a function that is not claimed, so its group is a new one (`Inv.push`).
-/

namespace Kcore.Gpu

structure PciFn where
  address : String
  vendor : Nat
  classCode : Nat
  iommuGroup : Option Int
  driver : String
  physfn : Option String
  sriovNumvfs : Option Nat
  virtfns : List (Nat × String)
  vgpuCurrent : Option Nat
  vgpuTypes : List (Nat × String)
  mdev : Bool

/-- The functions of a node, as the scan reads them: no two have one address. -/
structure PciTree where
  functions : List PciFn
  distinct : (functions.map PciFn.address).Nodup

/-! ### Classes -/

def classBase (classCode : Nat) : Nat := (classCode >>> 16) &&& 0xff

def isBridge (dev : PciFn) : Bool := classBase dev.classCode = 0x06

def isGpu (dev : PciFn) : Bool := classBase dev.classCode = 0x03 || classBase dev.classCode = 0x12

def isNic (dev : PciFn) : Bool := dev.classCode &&& 0xffff00 = 0x020000

def isNvme (dev : PciFn) : Bool := dev.classCode &&& 0xffff00 = 0x010800

def classLabel (classCode : Nat) : String :=
  match classBase classCode with
  | 0x01 => "storage"
  | 0x02 => "network"
  | 0x03 => "display"
  | 0x04 => "audio"
  | 0x06 => "bridge"
  | 0x0c => "serial bus"
  | 0x10 => "encryption"
  | 0x12 => "accelerator"
  | _ => "other"

def familyOf (dev : PciFn) : DeviceKind → String
  | .nic => "nic"
  | .nvme => "nvme"
  | .gpu =>
    if dev.vendor = 0x1002 ∨ dev.vendor = 0x1022 then "radeon"
    else if dev.vendor = 0x10de then "nvidia"
    else if dev.vendor = 0x8086 then "intel"
    else "accel"
  | _ => "raw"

def roleOf (kind : DeviceKind) (classCode : Nat) (blockedReason : String) : DeviceRole :=
  if kind ≠ .gpu then .passthrough
  else if blockedReason ≠ "" ∧ classCode &&& 0xffff00 = 0x030000 then .platform
  else .compute

def slotOf (address : String) : String := ((rsplitOnce address '.').map (·.1)).getD address

def isSliceVf (dev : PciFn) : Bool := dev.physfn.isSome && (VgpuVendor.ofPci dev.vendor).isSome && isGpu dev

/-! ### The group of a device -/

structure Assignment where
  assignable : Bool
  blockedReason : String
  functions : List String
  group : Int

def isCompanion (primary member : PciFn) : Bool :=
  if member.address = primary.address then true
  else if isBridge member then false
  else slotOf member.address = slotOf primary.address

def groupMembers (devices : List PciFn) (group : Int) : List PciFn :=
  devices.filter fun dev => dev.iommuGroup = some group

def assignment (primary : PciFn) (devices : List PciFn) : Assignment :=
  if isBridge primary then
    { assignable := false, blockedReason := "PCI bridge stays on the host", functions := [primary.address],
      group := primary.iommuGroup.getD (-1) }
  else match primary.iommuGroup with
    | none =>
      { assignable := false,
        blockedReason := "no IOMMU group; boot with the IOMMU enabled before assigning this device",
        functions := [primary.address], group := -1 }
    | some group =>
      let members := groupMembers devices group
      let foreign := (members.filter fun member => !isCompanion primary member).map fun member =>
        member.address ++ " (" ++ classLabel member.classCode ++ ")"
      if foreign.isEmpty then
        { assignable := true, blockedReason := "", functions := (members.map (·.address)).insertionSort (· ≤ ·),
          group := group }
      else
        { assignable := false,
          blockedReason := "IOMMU group " ++ toString group ++ " also contains " ++
            ", ".intercalate (foreign.insertionSort (· ≤ ·)),
          functions := [primary.address], group := group }

def buildDevice (primary : PciFn) (devices : List PciFn) (kind : DeviceKind) (family name : String) : GpuDevice :=
  let a := assignment primary devices
  { name := name, family := family, address := primary.address, functions := a.functions, iommuGroup := a.group,
    assignable := a.assignable, blockedReason := a.blockedReason, kind := kind,
    role := roleOf kind primary.classCode a.blockedReason, driver := primary.driver, parent := "", profile := "",
    profiles := [] }

/-! ### Whole devices -/

structure Found where
  claimed : List String
  counters : String → Nat
  entries : List GpuDevice

def kindOf (primary : PciFn) : DeviceKind := if isGpu primary then .gpu else if isNic primary then .nic else .nvme

def addPrimary (devices : List PciFn) (f : Found) (primary : PciFn) : Found :=
  if primary.address ∈ f.claimed then f
  else
    let kind := kindOf primary
    let family := familyOf primary kind
    let index := f.counters family
    let built := buildDevice primary devices kind family (family ++ toString index)
    { claimed := f.claimed ++ (if built.assignable then built.functions else [primary.address])
      counters := fun other => if other = family then index + 1 else f.counters other
      entries := f.entries ++ [built] }

def addPrimaries (devices : List PciFn) : Found :=
  (devices.filter fun dev => !isSliceVf dev && (isGpu dev || isNic dev || isNvme dev)).foldl (addPrimary devices)
    { claimed := [], counters := fun _ => 0, entries := [] }

def rawKey (dev : PciFn) : String :=
  match dev.iommuGroup with
  | some group => "group:" ++ toString group
  | none => "addr:" ++ dev.address

def rawEntries (devices : List PciFn) (claimed : List String) : List GpuDevice :=
  let left := devices.filter fun dev => !(decide (dev.address ∈ claimed) || isSliceVf dev)
  ((left.map rawKey).dedup.insertionSort (· ≤ ·)).filterMap fun key =>
    (left.find? fun dev => rawKey dev = key).map fun primary => buildDevice primary devices .raw "raw" primary.address

/-! ### Cards that are split -/

def isVgpuHost (pci : PciFn) (vgpuHosts : List String) : Bool :=
  match VgpuVendor.ofPci pci.vendor with
  | none => false
  | some vendor =>
    pci.driver = vendor.hostDriver && (pci.sriovNumvfs.any (0 < ·) || vgpuHosts.any (· = pci.address))

def splitCount (pci : PciFn) : Option Nat :=
  match pci.sriovNumvfs.filter (0 < ·) with
  | some count => some count
  | none => if 0 < pci.virtfns.length then some pci.virtfns.length else none

def splitProfile (vendor : VgpuVendor) (numVfs : Nat) : String := vendor.family ++ "-" ++ toString numVfs ++ "vf"

def markHost (devices : List PciFn) (vgpuHosts : List String) (dev : GpuDevice) : GpuDevice :=
  if dev.kind ≠ .gpu then dev
  else match devices.find? fun row => row.address = dev.address with
    | none => dev
    | some pci =>
      if (VgpuVendor.ofPci pci.vendor).map VgpuVendor.family ≠ some dev.family ∨ ¬ isVgpuHost pci vgpuHosts then dev
      else
        { dev with
          role := .vgpuHost, assignable := false,
          blockedReason := "vGPU host card; request a slice with --vgpu" }

def nvidiaVfioDriver : String := "nvidia-vgpu-vfio"

def sliceDriverOk (vf : PciFn) : Bool :=
  vf.driver = nvidiaVfioDriver ||
    vf.driver = "nvidia" && (!vf.vgpuTypes.isEmpty || vf.vgpuCurrent.any (· ≠ 0))

def sliceProfile (vf : PciFn) (devices : List PciFn) : String × List String :=
  let profiles := vf.vgpuTypes.map (·.2)
  let profile := match vf.vgpuCurrent with
    | some id =>
      if id ≠ 0 then
        (devices.findSome? fun dev => (dev.vgpuTypes.find? fun t => t.1 = id).map (·.2)).getD (toString id)
      else ""
    | none => ""
  (profile, profiles)

def orUnbound (driver : String) : String := if driver = "" then "unbound" else driver

def sliceBlock (parent : GpuDevice) (vf : PciFn) (vendor : VgpuVendor) : Option String :=
  if vendor.splitsEvenly then
    if parent.driver ≠ vendor.hostDriver then
      some ("parent " ++ parent.address ++ " driver is " ++ orUnbound parent.driver ++ ", not " ++ vendor.hostDriver)
    else if vf.driver ≠ "" ∧ vf.driver ≠ "vfio-pci" then
      some ("bound to " ++ vf.driver ++ " on the host; kcore-gpu-sriov binds " ++ vendor.asStr ++
        " virtual functions to vfio-pci")
    else none
  else if vf.mdev ∧ vf.vgpuTypes.isEmpty ∧ vf.vgpuCurrent.isNone then
    some "mdev vGPU is not supported; install vGPU 17 or later"
  else if parent.driver ≠ "nvidia" then
    some ("parent " ++ parent.address ++ " driver is " ++ orUnbound parent.driver ++ ", not nvidia")
  else if vf.driver = "vfio-pci" then some "bound to vfio-pci; a vGPU slice stays on nvidia or nvidia-vgpu-vfio"
  else if !sliceDriverOk vf then
    if vf.driver = "nvidia" then some "bound to nvidia but this function has no vGPU types"
    else some ("bound to " ++ orUnbound vf.driver ++ "; a vGPU slice must use nvidia or nvidia-vgpu-vfio")
  else none

def buildSlice (parent : GpuDevice) (vf : PciFn) (index : Nat) (devices : List PciFn) : GpuDevice :=
  let vendor := (VgpuVendor.ofPci vf.vendor).getD .nvidia
  let a := assignment vf devices
  let (profile, profiles) :=
    if vendor.splitsEvenly then
      match (devices.find? fun row => row.address = parent.address).bind splitCount with
      | some count => (splitProfile vendor count, [splitProfile vendor count])
      | none => ("", [])
    else sliceProfile vf devices
  let block := if a.assignable then sliceBlock parent vf vendor else none
  { name := parent.name ++ "/" ++ toString index, family := vendor.family, address := vf.address,
    functions := a.functions, iommuGroup := a.group, assignable := a.assignable && block.isNone,
    blockedReason := block.getD a.blockedReason, kind := .vgpu, role := .slice, driver := vf.driver,
    parent := parent.name, profile := profile, profiles := profiles }

structure Slices where
  claimed : List String
  slices : List GpuDevice

def addSlice (devices : List PciFn) (parent : GpuDevice) (vf : PciFn) (index : Nat) (s : Slices) : Slices :=
  let slice := buildSlice parent vf index devices
  { claimed := s.claimed ++ slice.functions ++ [slice.address], slices := s.slices ++ [slice] }

def addListed (devices : List PciFn) (parent : GpuDevice) (s : Slices) (virtfn : Nat × String) : Slices :=
  match devices.find? fun row => row.address = virtfn.2 with
  | none => s
  | some vf => if vf.address ∈ s.claimed then s else addSlice devices parent vf virtfn.1 s

def addHost (devices : List PciFn) (found : List GpuDevice) (s : Slices) (host : String × String) : Slices :=
  match devices.find? fun row => row.address = host.1 with
  | none => s
  | some pci =>
    match found.find? fun dev => dev.name = host.2 with
    | none => s
    | some parent => pci.virtfns.foldl (addListed devices parent) s

def vfFunction (vf : PciFn) : Nat :=
  ((rsplitOnce vf.address '.').bind fun (_, function) => parseUnsigned 4294967296 function).getD 0

def addLinked (devices : List PciFn) (found : List GpuDevice) (s : Slices) (vf : PciFn) : Slices :=
  if vf.address ∈ s.claimed then s
  else match vf.physfn, (VgpuVendor.ofPci vf.vendor).map VgpuVendor.family with
    | some parentAddr, some family =>
      match found.find? fun dev => dev.address = parentAddr && dev.family = family with
      | none => s
      | some parent =>
        let listed := (devices.find? fun row => row.address = parent.address).bind fun row =>
          (row.virtfns.find? fun virtfn => virtfn.2 = vf.address).map (·.1)
        addSlice devices parent vf (listed.getD (vfFunction vf)) s
    | _, _ => s

def applyVgpu (found : List GpuDevice) (devices : List PciFn) (vgpuHosts claimed : List String) : List GpuDevice :=
  let found := found.map (markHost devices vgpuHosts)
  let hosts := (found.filter fun dev => dev.role = .vgpuHost).map fun dev => (dev.address, dev.name)
  let s := hosts.foldl (addHost devices found) { claimed := claimed, slices := [] }
  let s := (devices.filter isSliceVf).foldl (addLinked devices found) s
  found ++ s.slices

def classify (functions : List PciFn) (vgpuHosts : List String) : List GpuDevice :=
  let devices := functions.insertionSort fun a b => a.address ≤ b.address
  let f := addPrimaries devices
  applyVgpu (f.entries ++ rawEntries devices f.claimed) devices vgpuHosts f.claimed

/-! ### What is found does not overlap -/

section Overlap

variable {devices : List PciFn} {claimed claimed' : List String} {entries : List GpuDevice}

def Live (e : GpuDevice) : Prop := e.assignable = true ∧ e.kind ≠ .raw

def OfGroup (devices : List PciFn) (group : Int) (functions : List String) : Prop :=
  ∀ address, address ∈ functions ↔ ∃ d ∈ devices, d.iommuGroup = some group ∧ d.address = address

/-- Everything that can be given away is a group of its own, and its functions are claimed. -/
structure Inv (devices : List PciFn) (claimed : List String) (entries : List GpuDevice) : Prop where
  group : ∀ e ∈ entries, Live e → ∃ g, OfGroup devices g e.functions
  claimed : ∀ e ∈ entries, Live e → e.functions ⊆ claimed
  disjoint : entries.Pairwise fun a b => Live a → Live b → List.Disjoint a.functions b.functions

variable {primary : PciFn} {s : Slices}

private theorem assignment_eq (h : (assignment primary devices).assignable = true) :
    ∃ g, primary.iommuGroup = some g ∧ OfGroup devices g (assignment primary devices).functions := by
  unfold assignment at h ⊢
  split at h
  · cases h
  · next hbridge =>
    rw [if_neg hbridge]
    cases hgroup : primary.iommuGroup with
    | none => simp [hgroup] at h
    | some g =>
      simp only [hgroup] at h ⊢
      split at h
      · next hforeign =>
        rw [if_pos hforeign]
        refine ⟨g, rfl, fun address => ?_⟩
        simp [List.mem_insertionSort, groupMembers, and_assoc]
      · cases h

private theorem Inv.push {e : GpuDevice} (hdistinct : (devices.map PciFn.address).Nodup)
    (h : Inv devices claimed entries) (hprimary : primary ∈ devices) (hfree : primary.address ∉ claimed)
    (hgroup : Live e → ∃ g, primary.iommuGroup = some g ∧ OfGroup devices g e.functions) (hmore : claimed ⊆ claimed')
    (hown : Live e → e.functions ⊆ claimed') : Inv devices claimed' (entries ++ [e]) := by
  have hlast : ∀ {e'}, e' ∈ entries ++ [e] → e' ∈ entries ∨ e' = e := by
    intro e' he'
    simpa using he'
  refine ⟨fun e' he' hlive => ?_, fun e' he' hlive => ?_, ?_⟩
  · rcases hlast he' with he' | rfl
    · exact h.group e' he' hlive
    · obtain ⟨g, -, hg⟩ := hgroup hlive
      exact ⟨g, hg⟩
  · rcases hlast he' with he' | rfl
    · exact List.Subset.trans (h.claimed e' he' hlive) hmore
    · exact hown hlive
  · refine List.pairwise_append.mpr ⟨h.disjoint, List.pairwise_singleton _ _, fun a ha b hb hla hlb => ?_⟩
    rw [List.mem_singleton] at hb
    subst hb
    intro address hina hinb
    obtain ⟨g, hpg, hg⟩ := hgroup hlb
    obtain ⟨g', hg'⟩ := h.group a ha hla
    obtain ⟨d, hd, hdg, hda⟩ := (hg address).mp hinb
    obtain ⟨d', hd', hdg', hda'⟩ := (hg' address).mp hina
    -- The address names one function, so the two groups are one, and the new function was claimed with it.
    have hsame : d = d' := List.inj_on_of_nodup_map hdistinct hd hd' (hda.trans hda'.symm)
    have hgg : g = g' := Option.some.inj (hdg.symm.trans (hsame ▸ hdg'))
    have hin : primary.address ∈ a.functions := (hg' _).mpr ⟨primary, hprimary, hgg ▸ hpg, rfl⟩
    exact hfree (h.claimed a ha hla hin)

private theorem Inv.append_raw {raws : List GpuDevice} (h : Inv devices claimed entries) (hraw : ∀ e ∈ raws, ¬ Live e) :
    Inv devices claimed (entries ++ raws) := by
  have hold : ∀ {e}, e ∈ entries ++ raws → Live e → e ∈ entries := by
    intro e he hlive
    rcases List.mem_append.mp he with he | he
    · exact he
    · exact absurd hlive (hraw e he)
  refine ⟨fun e he hlive => h.group e (hold he hlive) hlive, fun e he hlive => h.claimed e (hold he hlive) hlive, ?_⟩
  refine List.pairwise_append.mpr ⟨h.disjoint, ?_, fun a _ b hb _ hlive => absurd hlive (hraw b hb)⟩
  exact List.pairwise_of_forall_mem_list fun a ha b _ hlive => absurd hlive (hraw a ha)

private theorem Inv.map {f : GpuDevice → GpuDevice} (h : Inv devices claimed entries)
    (hf : ∀ e, (f e).functions = e.functions ∧ (Live (f e) → Live e)) : Inv devices claimed (entries.map f) := by
  refine ⟨fun e he hlive => ?_, fun e he hlive => ?_, ?_⟩
  · obtain ⟨e', he', rfl⟩ := List.mem_map.mp he
    rw [(hf e').1]
    exact h.group e' he' ((hf e').2 hlive)
  · obtain ⟨e', he', rfl⟩ := List.mem_map.mp he
    rw [(hf e').1]
    exact h.claimed e' he' ((hf e').2 hlive)
  · refine List.pairwise_map.mpr (h.disjoint.imp fun {a b} hab hla hlb => ?_)
    rw [(hf a).1, (hf b).1]
    exact hab ((hf a).2 hla) ((hf b).2 hlb)

private theorem inv_addPrimary {f : Found} (hdistinct : (devices.map PciFn.address).Nodup)
    (hprimary : primary ∈ devices) (h : Inv devices f.claimed f.entries) :
    Inv devices (addPrimary devices f primary).claimed (addPrimary devices f primary).entries := by
  unfold addPrimary
  split
  · exact h
  · next hfree =>
    simp only
    refine h.push hdistinct hprimary hfree ?_ (List.subset_append_left _ _) ?_
    · rintro ⟨hassign, -⟩
      exact assignment_eq hassign
    · rintro ⟨hassign, -⟩
      rw [if_pos hassign]
      exact List.subset_append_right _ _

private theorem inv_addPrimaries (hdistinct : (devices.map PciFn.address).Nodup) :
    Inv devices (addPrimaries devices).claimed (addPrimaries devices).entries := by
  unfold addPrimaries
  refine List.foldlRecOn _ _ (motive := fun f : Found => Inv devices f.claimed f.entries) ?_ ?_
  · exact ⟨by simp, by simp, List.Pairwise.nil⟩
  · intro f hf primary hprimary
    exact inv_addPrimary hdistinct (List.mem_filter.mp hprimary).1 hf

private theorem not_live_of_mem_rawEntries {e : GpuDevice} (he : e ∈ rawEntries devices claimed) : ¬ Live e := by
  obtain ⟨key, -, hkey⟩ := List.mem_filterMap.mp he
  obtain ⟨primary, -, rfl⟩ := Option.map_eq_some_iff.mp hkey
  exact fun hlive => hlive.2 rfl

private theorem markHost_keeps (hosts : List String) (e : GpuDevice) :
    (markHost devices hosts e).functions = e.functions ∧ (Live (markHost devices hosts e) → Live e) := by
  unfold markHost
  split
  · exact ⟨rfl, id⟩
  · split
    · exact ⟨rfl, id⟩
    · split
      · exact ⟨rfl, id⟩
      · exact ⟨rfl, fun hlive => absurd hlive.1 (by simp)⟩

private theorem inv_addSlice {parent : GpuDevice} {vf : PciFn} {index : Nat}
    (hdistinct : (devices.map PciFn.address).Nodup) (hvf : vf ∈ devices) (hfree : vf.address ∉ s.claimed)
    (h : Inv devices s.claimed (entries ++ s.slices)) :
    Inv devices (addSlice devices parent vf index s).claimed
      (entries ++ (addSlice devices parent vf index s).slices) := by
  unfold addSlice
  simp only
  rw [← List.append_assoc]
  refine h.push hdistinct hvf hfree ?_ ?_ ?_
  · rintro ⟨hassign, -⟩
    have hassign' : (assignment vf devices).assignable = true := by
      unfold buildSlice at hassign
      exact (Bool.and_eq_true_iff.mp hassign).1
    exact assignment_eq hassign'
  · intro address haddress
    simp [haddress]
  · rintro - address haddress
    simp [haddress]

private theorem inv_addListed {parent : GpuDevice} {virtfn : Nat × String}
    (hdistinct : (devices.map PciFn.address).Nodup) (h : Inv devices s.claimed (entries ++ s.slices)) :
    Inv devices (addListed devices parent s virtfn).claimed
      (entries ++ (addListed devices parent s virtfn).slices) := by
  unfold addListed
  split
  · exact h
  · next vf hvf =>
    split
    · exact h
    · next hfree => exact inv_addSlice hdistinct (List.mem_of_find?_eq_some hvf) hfree h

private theorem inv_addHost {host : String × String} (hdistinct : (devices.map PciFn.address).Nodup)
    (h : Inv devices s.claimed (entries ++ s.slices)) :
    Inv devices (addHost devices entries s host).claimed (entries ++ (addHost devices entries s host).slices) := by
  unfold addHost
  split
  · exact h
  · split
    · exact h
    · refine List.foldlRecOn _ _ (motive := fun s : Slices => Inv devices s.claimed (entries ++ s.slices)) h ?_
      intro s hs virtfn _
      exact inv_addListed hdistinct hs

private theorem inv_addLinked {vf : PciFn} (hdistinct : (devices.map PciFn.address).Nodup) (hvf : vf ∈ devices)
    (h : Inv devices s.claimed (entries ++ s.slices)) :
    Inv devices (addLinked devices entries s vf).claimed (entries ++ (addLinked devices entries s vf).slices) := by
  unfold addLinked
  split
  · exact h
  · next hfree =>
    split
    · split
      · exact h
      · exact inv_addSlice hdistinct hvf hfree h
    · exact h

private theorem inv_applyVgpu (hosts : List String) (hdistinct : (devices.map PciFn.address).Nodup)
    (h : Inv devices claimed entries) : ∃ claimed', Inv devices claimed' (applyVgpu entries devices hosts claimed) := by
  have hmarked : Inv devices claimed (entries.map (markHost devices hosts) ++ []) := by
    rw [List.append_nil]
    exact h.map (markHost_keeps hosts)
  unfold applyVgpu
  refine ⟨_, List.foldlRecOn _ _ (motive := fun s : Slices =>
    Inv devices s.claimed (entries.map (markHost devices hosts) ++ s.slices)) ?_ ?_⟩
  · refine List.foldlRecOn _ _ (motive := fun s : Slices =>
      Inv devices s.claimed (entries.map (markHost devices hosts) ++ s.slices)) hmarked ?_
    intro s hs host _
    exact inv_addHost hdistinct hs
  · intro s hs vf hvf
    exact inv_addLinked hdistinct (List.mem_filter.mp hvf).1 hs

end Overlap

/-! ### The inventory of a tree -/

/-- The entries of an inventory that can be given away by name share nothing, and each is made of whole groups. -/
structure Separate (tree : PciTree) (inventory : List GpuDevice) : Prop where
  disjoint : inventory.Pairwise fun a b => Live a → Live b → List.Disjoint a.functions b.functions
  named : ∀ e ∈ inventory, Live e → ∀ address ∈ e.functions,
    ∃ f ∈ tree.functions, f.address = address ∧ f.iommuGroup.isSome = true
  closed : ∀ e ∈ inventory, Live e → ∀ f ∈ tree.functions, f.address ∈ e.functions → ∀ g, f.iommuGroup = some g →
    ∀ other ∈ tree.functions, other.iommuGroup = some g → isBridge other = false → other.address ∈ e.functions
  unsplit : inventory.Pairwise fun a b => Live a → Live b → ∀ f ∈ tree.functions, f.address ∈ a.functions →
    ∀ other ∈ tree.functions, other.address ∈ b.functions → ∀ g, f.iommuGroup = some g → other.iommuGroup ≠ some g

/-- Whatever the functions of a node are, no two entries of its inventory split a group between them. -/
theorem inventory_separate (tree : PciTree) (vgpuHosts : List String) :
    Separate tree (classify tree.functions vgpuHosts) := by
  let devices := tree.functions.insertionSort fun a b => a.address ≤ b.address
  have hperm : devices.Perm tree.functions := List.perm_insertionSort _ _
  have hdistinct : (devices.map PciFn.address).Nodup := (hperm.map _).nodup_iff.mpr tree.distinct
  obtain ⟨claimed, hinv⟩ : ∃ claimed, Inv devices claimed (classify tree.functions vgpuHosts) :=
    inv_applyVgpu vgpuHosts hdistinct
      ((inv_addPrimaries hdistinct).append_raw fun e he => not_live_of_mem_rawEntries he)
  -- A function of the tree that an entry has brings its whole group with it.
  have hwhole : ∀ e ∈ classify tree.functions vgpuHosts, Live e → ∀ f ∈ tree.functions, f.address ∈ e.functions →
      ∀ g, f.iommuGroup = some g → ∀ other ∈ tree.functions, other.iommuGroup = some g →
      other.address ∈ e.functions := by
    intro e he hlive f hf hfe g hfg other hother hotherg
    obtain ⟨g', hg'⟩ := hinv.group e he hlive
    obtain ⟨d, hd, hdg, hda⟩ := (hg' _).mp hfe
    have hsame : d = f := List.inj_on_of_nodup_map hdistinct hd (hperm.mem_iff.mpr hf) hda
    have hgg : g' = g := Option.some.inj (hdg.symm.trans (hsame ▸ hfg))
    exact (hg' _).mpr ⟨other, hperm.mem_iff.mpr hother, hgg ▸ hotherg, rfl⟩
  refine ⟨hinv.disjoint, ?_, ?_, ?_⟩
  · intro e he hlive address haddress
    obtain ⟨g, hg⟩ := hinv.group e he hlive
    obtain ⟨d, hd, hdg, hda⟩ := (hg address).mp haddress
    exact ⟨d, hperm.mem_iff.mp hd, hda, by simp [hdg]⟩
  · intro e he hlive f hf hfe g hfg other hother hotherg _
    exact hwhole e he hlive f hf hfe g hfg other hother hotherg
  · refine hinv.disjoint.imp_of_mem ?_
    intro a b ha hb hab hla hlb f hf hfa other hother hotherb g hfg hotherg
    exact hab hla hlb (hwhole a ha hla f hf hfa g hfg other hother hotherg) hotherb

def cardAndNic : PciTree :=
  let gpu : PciFn :=
    { address := "0000:03:00.0", vendor := 0x1002, classCode := 0x030000, iommuGroup := some 15, driver := "",
      physfn := none, sriovNumvfs := none, virtfns := [], vgpuCurrent := none, vgpuTypes := [], mdev := false }
  let audio := { gpu with address := "0000:03:00.1", classCode := 0x040300 }
  ⟨[{ gpu with address := "0000:04:00.0", classCode := 0x020000, iommuGroup := some 16 }, audio, gpu], by decide⟩

/-- A card takes the audio function of its slot with it; the network card beside it is a group of its own. -/
theorem card_and_nic_separate :
    ((classify cardAndNic.functions []).map fun e => (e.name, e.functions, e.assignable)) =
      [("radeon0", ["0000:03:00.0", "0000:03:00.1"], true), ("nic0", ["0000:04:00.0"], true)] ∧
    Separate cardAndNic (classify cardAndNic.functions []) :=
  ⟨by decide, inventory_separate cardAndNic []⟩

end Kcore.Gpu
