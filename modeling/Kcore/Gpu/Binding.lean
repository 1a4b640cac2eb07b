import Kcore.Lib.Columns
import Kcore.Store.Vm
import Kcore.Gpu.Select

/-!
# Stored vGPU bindings

`assign_vgpus_on_node` chooses slices for a VM and stores them in two columns: the names, each with its profile, and
the PCI functions of all slices, one after the other. `vgpu_slices_for` reads the columns side by side when the
configuration of the node is written. A slice has the functions of its IOMMU group, so it can have more than one; from
the second function on, the names and the functions are then out of step.

`keeps_devices_iff` says when each slice is read back with the functions it has in the inventory.
-/

namespace Kcore.Gpu

/-! ### Requests -/

def families : List String := ["nvme", "radeon", "nvidia", "intel", "accel", "nic"]

def familyOfName (name : String) : Option String :=
  families.find? fun family => (stripPrefix name family).any fun rest => rest.toList.all Char.isDigit

def normalizeProfile (raw : String) : Except String String :=
  let profile := trim raw
  let profile := (((stripPrefix profile "NVIDIA ").or (stripPrefix profile "nvidia ")).map trim).getD profile
  if profile = "" then .error "vGPU profile is empty"
  else if !(profile.toList.all fun c => c.isAlphanum || c == '-') || !profile.toList.any Char.isAlpha ||
      !profile.toList.any Char.isDigit then
    .error ("vGPU profile '" ++ profile ++ "' should look like A2-4C or intel-2vf")
  else if (VgpuVendor.ofProfile profile).splitsEvenly then .ok (toAsciiLowercase profile)
  else .ok profile

/-- `nvidia0/3`: a card with its number, and the number of a slice. -/
def namesSlice (card index : String) : Bool :=
  (familyOfName card).any (card ≠ ·) && index ≠ "" && index.toList.all Char.isDigit

def parseVgpuSelector (text : String) : Except String VgpuSelector :=
  let raw := trim text
  let needsProfile := "vGPU slice '" ++ raw ++ "' needs a profile, for example nvidia0/3=A2-4C"
  if raw = "" then .error "vGPU request is empty"
  else match splitOnce raw '=' with
    | some (left, profile) => do
      let profile ← normalizeProfile profile
      let left := toAsciiLowercase (trim left)
      if left = "" then .error ("vGPU request '" ++ raw ++ "' needs a card or slice before the profile")
      else if '/' ∈ left.toList then
        if (splitOnce left '/').any fun (card, index) => namesSlice card index then .ok (.slice left profile)
        else .error needsProfile
      else if (familyOfName left).any (left ≠ ·) then .ok (.card left profile)
      else .error ("vGPU card '" ++ left ++ "' should look like nvidia0=A2-4C")
    | none =>
      if '/' ∈ raw.toList then .error needsProfile
      else (normalizeProfile raw).map .profile

/-! ### Storing and reading bindings -/

inductive AssignError where
  | invalidArgument (message : String)
  | failedPrecondition (message : String)
  deriving DecidableEq

/-- What is stored of a VM: the columns of its row, and its entry in the table of devices. -/
structure VmDevices where
  id : String
  nodeId : String
  gpu : Option String
  pciDevices : String

/-- The column of names is read as the column of addresses is: at the commas, without blanks and empty entries. -/
def vmGpuNames (vm : VmDevices) : List String := splitPciDevices (vm.gpu.getD "")

def takenGpuNames (inventory : List GpuDevice) (vms : List VmDevices) (exceptVm : Option String) : List String :=
  (vms.filter fun vm => exceptVm ≠ some vm.id).flatMap fun vm =>
    vmGpuNames vm ++ (inventory.filter fun gpu =>
      gpu.functions.any fun addr => (splitPciDevices vm.pciDevices).any (· = addr)).map (·.name)

def chooseVgpus (inventory : List GpuDevice) (vms : List VmDevices) (requests : List String)
    (exceptVm : Option String) : Except AssignError (List (GpuDevice × String)) := do
  let selectors ← requests.mapM fun raw => (parseVgpuSelector raw).mapError .invalidArgument
  (selectVgpus inventory selectors (takenGpuNames inventory vms exceptVm)).mapError .failedPrecondition

def assignVgpusOnNode (inventory : List GpuDevice) (vms : List VmDevices) (requests : List String)
    (exceptVm : Option String) : Except AssignError (String × String) := do
  let chosen ← chooseVgpus inventory vms requests exceptVm
  let names := ",".intercalate (chosen.map bindingText)
  let pciDevices ← (joinPciDevices (chosen.flatMap (·.1.functions))).mapError .invalidArgument
  return (names, pciDevices)

def VmDevices.storeGpuAssignment (vm : VmDevices) (names pciDevices : String) : VmDevices :=
  { vm with gpu := some names, pciDevices := pciDevices }

/-- The loop of `vgpu_slices_for` over the columns of a VM: slice and profile, and the address paired with them. -/
def slicesRead (vm : VmDevices) : List ((String × String) × String) :=
  ((vmGpuNames vm).zip (splitPciDevices vm.pciDevices)).filterMap fun (name, addr) =>
    (bindingProfile name).map fun profile => ((bindingDeviceName name, profile), addr)

structure VgpuSliceNix where
  vmId : String
  address : String
  profile : String
  hostAddress : String
  vendor : VgpuVendor

def hostAddress (inventory : List GpuDevice) (device : String) : String :=
  (((inventory.find? (·.name = device)).bind fun slice => inventory.find? (·.name = slice.parent)).map
    (·.address)).getD ""

def vgpuSlicesFor (inventory : List GpuDevice) (nodeId : String) (vms : List VmDevices) : List VgpuSliceNix :=
  (vms.filter (·.nodeId = nodeId)).flatMap fun vm => (slicesRead vm).map fun ((device, profile), addr) =>
    { vmId := vm.id, address := addr, profile := profile, hostAddress := hostAddress inventory device,
      vendor := VgpuVendor.ofProfile profile }

/-! ### Columns of entries -/

structure IsEntry (s : String) : Prop where
  token : IsToken s
  noComma : ',' ∉ s.toList

theorem isWhitespace_of_isHexDigit {c : Char} (h : isHexDigit c = true) : isWhitespace c = false ∧ c ≠ ',' := by
  constructor
  · refine isWhitespace_of_isAlphanum ?_
    simp only [isHexDigit, Bool.or_eq_true, Bool.and_eq_true, decide_eq_true_eq, Char.le_def,
      UInt32.le_iff_toNat_le] at h
    delta Char.isAlphanum Char.isAlpha Char.isUpper Char.isLower Char.isDigit
    simp only [Bool.or_eq_true, Bool.and_eq_true, decide_eq_true_eq, ge_iff_le, UInt32.le_iff_toNat_le]
    simp only [Char.reduceVal, UInt32.reduceToNat, Char.toNat_val] at h ⊢
    omega
  · rintro rfl
    exact absurd h (by decide)

theorem splitPciDevices_intercalate (l : List String) :
    splitPciDevices (",".intercalate l) = l.flatMap splitPciDevices := by
  induction l with
  | nil => rfl
  | cons s l ih =>
    cases l with
    | nil => simp
    | cons t l =>
      have hchars : (",".intercalate (s :: t :: l)).toList = s.toList ++ ',' :: (",".intercalate (t :: l)).toList := by
        simp [String.intercalate_cons_cons]
      rw [List.flatMap_cons, ← ih]
      unfold splitPciDevices
      rw [hchars, List.splitOnP_append_cons _ _ (by simp), List.map_append, List.filter_append]

variable {s profile : String}

theorem splitPciDevices_single (hcomma : ',' ∉ s.toList) (htrim : trim s = s) (hne : s ≠ "") :
    splitPciDevices s = [s] := by
  have hno : ∀ c ∈ s.toList, decide (c = ',') = false := fun c hc =>
    decide_eq_false fun heq => hcomma (heq ▸ hc)
  unfold splitPciDevices
  rw [List.splitOnP_eq_singleton hno]
  simp [htrim, hne]

theorem IsEntry.splitPciDevices_eq (h : IsEntry s) : splitPciDevices s = [s] :=
  splitPciDevices_single h.noComma (trim_of_no_whitespace h.token.2) h.token.1

theorem splitPciDevices_of_entries {l : List String} (h : ∀ s ∈ l, splitPciDevices s = [s]) :
    splitPciDevices (",".intercalate l) = l := by
  rw [splitPciDevices_intercalate]
  induction l with
  | nil => rfl
  | cons s l ih =>
    have hrest := ih fun t ht => h t (List.mem_cons_of_mem _ ht)
    rw [List.flatMap_cons, h s List.mem_cons_self, hrest, List.singleton_append]

/-! ### The column of addresses -/

def canonical (function : String) : String := (normalizePciBdf function).toOption.getD function

theorem normalizePciBdf_eq_ok {raw bdf : String} (h : normalizePciBdf raw = .ok bdf) : ∃ domain bus dev func,
    (isHex domain 4 && isHex bus 2 && isHex dev 2 && isFunc func) = true ∧
      domain ++ ":" ++ bus ++ ":" ++ dev ++ "." ++ func = bdf := by
  unfold normalizePciBdf at h
  dsimp only at h
  split at h
  · cases h
  split at h
  · cases h
  split at h
  · cases h
  split at h
  · cases h
  -- The domain is given or is the default; the shape is checked alike.
  split at h
  all_goals
    split at h
    next hshape => exact ⟨_, _, _, _, hshape, Except.ok.inj h⟩
    · cases h

theorem isEntry_of_normalizePciBdf {raw bdf : String} (h : normalizePciBdf raw = .ok bdf) : IsEntry bdf := by
  obtain ⟨domain, bus, dev, func, hshape, rfl⟩ := normalizePciBdf_eq_ok h
  simp only [Bool.and_eq_true, isHex, isFunc, decide_eq_true_eq, List.all_eq_true] at hshape
  obtain ⟨⟨⟨hdomain, hbus⟩, hdev⟩, hfunc⟩ := hshape
  have hchars : ∀ c ∈ (domain ++ ":" ++ bus ++ ":" ++ dev ++ "." ++ func).toList,
      isWhitespace c = false ∧ c ≠ ',' := by
    intro c hc
    simp only [String.toList_append, List.mem_append] at hc
    have hdigit : ∀ c : Char, ('0' ≤ c ∧ c ≤ '7') → isHexDigit c = true := by
      intro c hc
      have h9 : c ≤ '9' := Char.le_trans hc.2 (show '7' ≤ '9' by decide)
      simp [isHexDigit, hc.1, h9]
    rcases hc with (((((hc | hc) | hc) | hc) | hc) | hc) | hc
    · exact isWhitespace_of_isHexDigit (hdomain.2 c hc)
    · cases List.mem_singleton.mp hc
      decide
    · exact isWhitespace_of_isHexDigit (hbus.2 c hc)
    · cases List.mem_singleton.mp hc
      decide
    · exact isWhitespace_of_isHexDigit (hdev.2 c hc)
    · cases List.mem_singleton.mp hc
      decide
    · exact isWhitespace_of_isHexDigit (hdigit c (hfunc.2 c hc))
  refine ⟨⟨fun hempty => ?_, fun c hc => (hchars c hc).1⟩, fun hc => (hchars _ hc).2 rfl⟩
  have hlength := congrArg (fun s => s.toList.length) hempty
  simp at hlength

theorem collectPciDevices_eq_ok {out addrs result : List String} (h : collectPciDevices out addrs = .ok result) :
    result = out ++ addrs.map canonical ∧ ∀ raw ∈ addrs, IsEntry (canonical raw) := by
  induction addrs generalizing out with
  | nil =>
    cases h
    simp
  | cons raw addrs ih =>
    unfold collectPciDevices at h
    split at h
    · cases h
    next bdf hbdf =>
      split at h
      · cases h
      · have hcanonical : canonical raw = bdf := by simp [canonical, hbdf, Except.toOption]
        obtain ⟨hresult, hentries⟩ := ih h
        refine ⟨by simp [hresult, hcanonical], ?_⟩
        intro r hr
        rcases List.mem_cons.mp hr with rfl | hr
        · exact hcanonical ▸ isEntry_of_normalizePciBdf hbdf
        · exact hentries r hr

theorem splitPciDevices_joinPciDevices {addrs : List String} {column : String}
    (h : joinPciDevices addrs = .ok column) : splitPciDevices column = addrs.map canonical := by
  unfold joinPciDevices at h
  cases hcollect : collectPciDevices [] addrs with
  | error e =>
    rw [hcollect] at h
    cases h
  | ok result =>
    rw [hcollect] at h
    cases h
    obtain ⟨rfl, hentries⟩ := collectPciDevices_eq_ok hcollect
    rw [List.nil_append]
    refine splitPciDevices_of_entries fun s hs => ?_
    obtain ⟨raw, hraw, rfl⟩ := List.mem_map.mp hs
    exact (hentries raw hraw).splitPciDevices_eq

/-! ### The column of names -/

structure ReadableName (name : String) : Prop where
  noComma : ',' ∉ name.toList
  noEquals : '=' ∉ name.toList
  noBlank : ∀ c ∈ name.toList.head?, isWhitespace c = false

theorem readableName_iff {name : String} : ReadableName name ↔
    ',' ∉ name.toList ∧ '=' ∉ name.toList ∧ (name.toList.head?.all fun c => !isWhitespace c) = true := by
  constructor
  · intro h
    exact ⟨h.noComma, h.noEquals, by simpa [Option.all_eq_true] using h.noBlank⟩
  · rintro ⟨hcomma, hequals, hblank⟩
    exact ⟨hcomma, hequals, by simpa [Option.all_eq_true] using hblank⟩

instance (name : String) : Decidable (ReadableName name) := decidable_of_iff _ readableName_iff.symm

def readBinding (stored : String) : String × Option String := (bindingDeviceName stored, bindingProfile stored)

theorem head_trim (s : String) : ∀ c ∈ (trim s).toList.head?, isWhitespace c = false := by
  intro c hc
  obtain ⟨rest, hrest⟩ : (trim s).toList <+: s.toList.dropWhile isWhitespace := by
    unfold trim
    rw [String.toList_ofList]
    exact List.rdropWhile_prefix isWhitespace _
  have hdrop := List.head?_dropWhile_not isWhitespace s.toList
  rw [← hrest, List.head?_append_of_ne_nil _ (List.ne_nil_of_mem (List.mem_of_mem_head? hc)), hc] at hdrop
  exact hdrop

theorem readableName_bindingDeviceName {entry : String} (hcomma : ',' ∉ entry.toList)
    (hhead : ∀ c ∈ entry.toList.head?, isWhitespace c = false) : ReadableName (bindingDeviceName entry) := by
  by_cases heq : '=' ∈ entry.toList
  · have hname : (bindingDeviceName entry).toList = entry.toList.takeWhile (· ≠ '=') := by
      simp [bindingDeviceName, splitOnce, heq]
    refine ⟨fun hc => hcomma ?_, fun hc => ?_, fun c hc => hhead c ?_⟩
    · rw [hname] at hc
      exact (List.takeWhile_prefix _).subset hc
    · rw [hname] at hc
      simpa using List.mem_takeWhile_imp hc
    · rw [hname] at hc
      obtain ⟨rest, hrest⟩ := List.takeWhile_prefix (fun c => decide (c ≠ '=')) (l := entry.toList)
      rw [← hrest, List.head?_append_of_ne_nil _ (List.ne_nil_of_mem (List.mem_of_mem_head? hc))]
      exact hc
  · have hname : bindingDeviceName entry = entry := by simp [bindingDeviceName, splitOnce, heq]
    rw [hname]
    exact ⟨hcomma, heq, hhead⟩

theorem readableName_of_mem {column stored : String} (h : stored ∈ splitPciDevices column) :
    ReadableName (bindingDeviceName stored) := by
  obtain ⟨h, -⟩ := List.mem_filter.mp h
  obtain ⟨piece, hpiece, rfl⟩ := List.mem_map.mp h
  refine readableName_bindingDeviceName (fun hc => ?_) (head_trim _)
  have hmem : ',' ∈ piece := by
    rw [Function.comp_apply] at hc
    unfold trim at hc
    rw [String.toList_ofList, String.toList_ofList] at hc
    exact (List.dropWhile_sublist _).subset ((List.rdropWhile_prefix _ _).subset hc)
  exact absurd (not_mem_of_mem_splitOnP hpiece _ hmem) (by simp)

theorem splitPciDevices_bindingText {slice : GpuDevice} (hname : ReadableName slice.name) (hprofile : IsEntry profile) :
    splitPciDevices (bindingText (slice, profile)) = [bindingText (slice, profile)] := by
  have hchars : (bindingText (slice, profile)).toList = slice.name.toList ++ '=' :: profile.toList := by
    simp [bindingText]
  have hne : profile.toList ≠ [] := fun hnil => hprofile.token.1 (String.toList_inj.mp (hnil.trans rfl))
  refine splitPciDevices_single ?_ (trim_of_ends ?_ ?_) ?_
  · rw [hchars]
    simp [hname.noComma, hprofile.noComma]
  · rw [hchars]
    intro c hc
    by_cases hempty : slice.name.toList = []
    · have heq : '=' = c := by simpa [hempty] using hc
      subst heq
      decide
    · rw [List.head?_append_of_ne_nil _ hempty] at hc
      exact hname.noBlank c hc
  · rw [hchars]
    intro c hc
    have hlast : c ∈ profile.toList.getLast? := by
      rw [List.getLast?_append_cons, List.getLast?_cons_of_ne_nil hne] at hc
      exact hc
    exact hprofile.token.2 c (List.mem_of_getLast? hlast)
  · intro hempty
    have := congrArg String.toList hempty
    simp [hchars] at this

theorem readBinding_bindingText {slice : GpuDevice} (hname : ReadableName slice.name) (hprofile : profile ≠ "") :
    readBinding (bindingText (slice, profile)) = (slice.name, some profile) := by
  have hread : splitOnce (slice.name ++ "=" ++ profile) '=' = some (slice.name, profile) :=
    splitOnce_append hname.noEquals rfl profile
  simp [readBinding, bindingDeviceName, bindingProfile, bindingText, hread, hprofile]

/-! ### Profiles -/

theorem isEntry_of_chars (hne : s ≠ "") (h : ∀ c ∈ s.toList, c.isAlphanum = true ∨ c = '-') : IsEntry s := by
  refine ⟨⟨hne, fun c hc => ?_⟩, fun hc => ?_⟩
  · rcases h c hc with halnum | rfl
    · exact isWhitespace_of_isAlphanum halnum
    · decide
  · rcases h _ hc with halnum | heq
    · exact absurd halnum (by decide)
    · exact absurd heq (by decide)

theorem isAlphanum_toLower {c : Char} (h : c.isAlphanum = true) : c.toLower.isAlphanum = true := by
  unfold Char.toLower
  split
  next hupper =>
    delta Char.isAlphanum Char.isAlpha Char.isUpper Char.isLower Char.isDigit
    simp only [Bool.or_eq_true, Bool.and_eq_true, decide_eq_true_eq, ge_iff_le, UInt32.le_iff_toNat_le] at hupper ⊢
    simp only [Char.reduceVal, UInt32.reduceSub, UInt32.reduceToNat, UInt32.toNat_add] at hupper ⊢
    omega
  · exact h

theorem isEntry_of_normalizeProfile {raw : String} (h : normalizeProfile raw = .ok profile) : IsEntry profile := by
  unfold normalizeProfile at h
  dsimp only at h
  generalize (Option.map trim _).getD _ = stripped at h
  split at h
  · cases h
  split at h
  · cases h
  next hne hshape =>
    simp only [Bool.or_eq_true, not_or, Bool.not_eq_true, Bool.not_eq_false', List.all_eq_true, beq_iff_eq] at hshape
    split at h
    · cases h
      have hchars : (toAsciiLowercase stripped).toList = stripped.toList.map Char.toLower := String.toList_ofList ..
      refine isEntry_of_chars (fun hempty => hne ?_) fun c hc => ?_
      · have hnil : stripped.toList.map Char.toLower = [] := by rw [← hchars, hempty]; rfl
        exact String.toList_inj.mp ((List.map_eq_nil_iff.mp hnil).trans rfl)
      · rw [hchars] at hc
        obtain ⟨d, hd, rfl⟩ := List.mem_map.mp hc
        rcases hshape.1.1 d hd with halnum | rfl
        · exact Or.inl (isAlphanum_toLower halnum)
        · exact Or.inr (by decide)
    · cases h
      exact isEntry_of_chars hne hshape.1.1

theorem isEntry_of_parseVgpuSelector {raw : String} {selector : VgpuSelector}
    (h : parseVgpuSelector raw = .ok selector) : IsEntry selector.wanted := by
  unfold parseVgpuSelector at h
  dsimp only at h
  split at h
  · cases h
  split at h
  · -- With a card or a slice before the profile: whichever is accepted carries the profile read here.
    obtain ⟨profile, hprofile, h⟩ := Checks.bind_eq_ok.mp h
    have hentry := isEntry_of_normalizeProfile hprofile
    split at h
    · cases h
    split at h
    · split at h
      · cases h
        exact hentry
      · cases h
    · split at h
      · cases h
        exact hentry
      · cases h
  · split at h
    · cases h
    · generalize hprofile : normalizeProfile (trim raw) = answer at h
      cases answer with
      | error e => cases h
      | ok profile =>
        cases h
        exact isEntry_of_normalizeProfile hprofile

/-! ### What is read back -/

section ReadBack

variable {inventory : List GpuDevice} {vms : List VmDevices} {requests : List String} {exceptVm : Option String}
  {chosen : List (GpuDevice × String)}

theorem wanted_of_mem {selectors : List VgpuSelector}
    (h : List.Forall₂ (fun request choice => choice.2 = request.wanted ∧ Answers request choice.1) selectors chosen)
    {choice : GpuDevice × String} (hchoice : choice ∈ chosen) : ∃ selector ∈ selectors, choice.2 = selector.wanted := by
  induction h with
  | nil => cases hchoice
  | cons hfirst _ ih =>
    rcases List.mem_cons.mp hchoice with rfl | hlater
    · exact ⟨_, List.mem_cons_self, hfirst.1⟩
    · obtain ⟨selector, hselector, hwanted⟩ := ih hlater
      exact ⟨selector, List.mem_cons_of_mem _ hselector, hwanted⟩

theorem chooseVgpus_eq_ok (h : chooseVgpus inventory vms requests exceptVm = .ok chosen) :
    (chosen.map fun choice => choice.1.name).Nodup ∧ ∀ choice ∈ chosen, IsEntry choice.2 := by
  obtain ⟨selectors, hselectors, h⟩ := Checks.bind_eq_ok.mp h
  have hloop := selectLoop_of_selectVgpus (Checks.mapError_eq_ok.mp h)
  obtain ⟨heach, -, hnodup⟩ := selectLoop_eq_ok hloop
  refine ⟨hnodup, fun choice hchoice => ?_⟩
  obtain ⟨selector, hselector, hwanted⟩ := wanted_of_mem heach hchoice
  obtain ⟨raw, -, hraw⟩ := Checks.exists_of_mem_mapM hselectors selector hselector
  rw [hwanted]
  exact isEntry_of_parseVgpuSelector (Checks.mapError_eq_ok.mp hraw)

/-- The columns of the VM are read back as the chosen slices: the names with their profiles, and each of them with
the functions its slice has, in the order they were chosen in. -/
structure KeepsDevices (vm : VmDevices) (chosen : List (GpuDevice × String)) : Prop where
  bindings : (vmGpuNames vm).map readBinding = chosen.map fun choice => (choice.1.name, some choice.2)
  slices : slicesRead vm = Columns.keyed (fun choice => (choice.1.name, choice.2))
    (fun choice => choice.1.functions.map canonical) chosen

theorem vmGpuNames_of_readable {vm : VmDevices} (hprofiles : ∀ choice ∈ chosen, IsEntry choice.2)
    (hgpu : vm.gpu = some (",".intercalate (chosen.map bindingText)))
    (hnames : ∀ choice ∈ chosen, ReadableName choice.1.name) : vmGpuNames vm = chosen.map bindingText := by
  rw [vmGpuNames, hgpu, Option.getD_some]
  refine splitPciDevices_of_entries fun s hs => ?_
  obtain ⟨choice, hchoice, rfl⟩ := List.mem_map.mp hs
  exact splitPciDevices_bindingText (hnames choice hchoice) (hprofiles choice hchoice)

theorem bindings_iff_readable (vm : VmDevices) (hprofiles : ∀ choice ∈ chosen, IsEntry choice.2)
    (hgpu : vm.gpu = some (",".intercalate (chosen.map bindingText))) :
    ((vmGpuNames vm).map readBinding = chosen.map fun choice => (choice.1.name, some choice.2)) ↔
      ∀ choice ∈ chosen, ReadableName choice.1.name := by
  constructor
  · intro heq choice hchoice
    have hmem : (choice.1.name, some choice.2) ∈ (vmGpuNames vm).map readBinding := by
      rw [heq]
      exact List.mem_map_of_mem hchoice
    obtain ⟨stored, hstored, hread⟩ := List.mem_map.mp hmem
    have hname : bindingDeviceName stored = choice.1.name := congrArg Prod.fst hread
    exact hname ▸ readableName_of_mem hstored
  · intro hnames
    rw [vmGpuNames_of_readable hprofiles hgpu hnames, List.map_map]
    refine List.map_congr_left fun choice hchoice => ?_
    exact readBinding_bindingText (hnames choice hchoice) (hprofiles choice hchoice).token.1

theorem slicesRead_eq_zip {vm : VmDevices} (hprofiles : ∀ choice ∈ chosen, IsEntry choice.2)
    (hnames : ∀ choice ∈ chosen, ReadableName choice.1.name) (hgpu : vmGpuNames vm = chosen.map bindingText) :
    slicesRead vm =
      (chosen.map fun choice => (choice.1.name, choice.2)).zip (splitPciDevices vm.pciDevices) := by
  unfold slicesRead
  rw [hgpu, List.zip_map_left, List.zip_map_left, List.filterMap_map, ← List.filterMap_eq_map]
  refine List.filterMap_congr ?_
  rintro ⟨⟨slice, profile⟩, addr⟩ hpair
  have hchoice : (slice, profile) ∈ chosen := (List.of_mem_zip hpair).1
  have hread := readBinding_bindingText (hnames _ hchoice) (hprofiles _ hchoice).token.1
  obtain ⟨hdevice, hprofile⟩ := Prod.mk.inj hread
  simp [hdevice, hprofile]

/-- Each slice is read back with its own functions exactly when the names can be read and every slice has one function,
up to a point from which none has any. -/
theorem keeps_devices_iff (vm : VmDevices) {names pciDevices : String}
    (hchosen : chooseVgpus inventory vms requests exceptVm = .ok chosen)
    (hassign : assignVgpusOnNode inventory vms requests exceptVm = .ok (names, pciDevices)) :
    KeepsDevices (vm.storeGpuAssignment names pciDevices) chosen ↔
      (∀ choice ∈ chosen, ReadableName choice.1.name) ∧ Columns.InStep (fun choice => choice.1.functions) chosen := by
  obtain ⟨hnodup, hprofiles⟩ := chooseVgpus_eq_ok hchosen
  obtain ⟨hgpu, hpci⟩ : names = ",".intercalate (chosen.map bindingText) ∧
      joinPciDevices (chosen.flatMap (·.1.functions)) = .ok pciDevices := by
    obtain ⟨same, hsame, hassign⟩ := Checks.bind_eq_ok.mp hassign
    cases hchosen.symm.trans hsame
    obtain ⟨column, hcolumn, hassign⟩ := Checks.bind_eq_ok.mp hassign
    cases hassign
    exact ⟨rfl, Checks.mapError_eq_ok.mp hcolumn⟩
  subst hgpu
  have haddrs : splitPciDevices pciDevices = chosen.flatMap fun choice => choice.1.functions.map canonical := by
    rw [splitPciDevices_joinPciDevices hpci, List.map_flatMap]
  have hkeys : (chosen.map fun choice => (choice.1.name, choice.2)).Nodup :=
    List.Nodup.of_map Prod.fst (by rwa [List.map_map])
  have hbindings := bindings_iff_readable (vm.storeGpuAssignment _ pciDevices) hprofiles rfl
  -- Once the names are read, what is left is that the two columns are in step.
  have hslices (hnames : ∀ choice ∈ chosen, ReadableName choice.1.name) :
      slicesRead (vm.storeGpuAssignment (",".intercalate (chosen.map bindingText)) pciDevices) =
        Columns.keyed (fun choice => (choice.1.name, choice.2)) (fun choice => choice.1.functions.map canonical)
          chosen ↔ Columns.InStep (fun choice => choice.1.functions) chosen := by
    rw [slicesRead_eq_zip hprofiles hnames (vmGpuNames_of_readable hprofiles rfl hnames)]
    rw [show (vm.storeGpuAssignment _ pciDevices).pciDevices = pciDevices from rfl, haddrs,
      Columns.zip_eq_keyed_iff hkeys, Columns.inStep_map]
  constructor
  · intro hkeeps
    have hnames := hbindings.mp hkeeps.bindings
    exact ⟨hnames, (hslices hnames).mp hkeeps.slices⟩
  · rintro ⟨hnames, hstep⟩
    exact ⟨hbindings.mpr hnames, (hslices hnames).mpr hstep⟩

def sharedGroup (functions : List String) : List GpuDevice :=
  let slice (index : String) (functions : List String) : GpuDevice :=
    { name := "nvidia0/" ++ index, family := "nvidia", address := functions.headD "", functions := functions,
      iommuGroup := 11, assignable := true, blockedReason := "", kind := .vgpu, role := .slice, driver := "nvidia",
      parent := "nvidia0", profile := "", profiles := ["A2-4C", "A2-8C"] }
  [slice "0" functions, slice "1" ["0000:c1:00.6"]]

def bareVm : VmDevices := { id := "vm-1", nodeId := "node-1", gpu := none, pciDevices := "" }

/-- Slices of one function each are read back as they were chosen. -/
theorem slices_of_one_function :
    KeepsDevices (bareVm.storeGpuAssignment "nvidia0/0=A2-4C,nvidia0/1=A2-4C" "0000:c1:00.4,0000:c1:00.6")
      ((sharedGroup ["0000:c1:00.4"]).map fun slice => (slice, "A2-4C")) := by
  have hchosen : chooseVgpus (sharedGroup ["0000:c1:00.4"]) [] ["nvidia0/0=A2-4C", "nvidia0/1=A2-4C"] none =
      .ok ((sharedGroup ["0000:c1:00.4"]).map fun slice => (slice, "A2-4C")) := by decide
  have hassign : assignVgpusOnNode (sharedGroup ["0000:c1:00.4"]) [] ["nvidia0/0=A2-4C", "nvidia0/1=A2-4C"] none =
      .ok ("nvidia0/0=A2-4C,nvidia0/1=A2-4C", "0000:c1:00.4,0000:c1:00.6") := by decide
  refine (keeps_devices_iff bareVm hchosen hassign).mpr ⟨by decide, ?_⟩
  exact Or.inl ⟨rfl, Or.inl ⟨rfl, trivial⟩⟩

/-- A slice with two functions: its second function is read as that of the next slice, whose own is not read. -/
theorem second_function_paired_with_next_slice :
    let inventory := sharedGroup ["0000:c1:00.4", "0000:c1:00.5"]
    let chosen := inventory.map fun slice => (slice, "A2-4C")
    let vm := bareVm.storeGpuAssignment "nvidia0/0=A2-4C,nvidia0/1=A2-4C" "0000:c1:00.4,0000:c1:00.5,0000:c1:00.6"
    chooseVgpus inventory [] ["nvidia0/0=A2-4C", "nvidia0/1=A2-4C"] none = .ok chosen ∧
    assignVgpusOnNode inventory [] ["nvidia0/0=A2-4C", "nvidia0/1=A2-4C"] none =
      .ok ("nvidia0/0=A2-4C,nvidia0/1=A2-4C", "0000:c1:00.4,0000:c1:00.5,0000:c1:00.6") ∧
    slicesRead vm = [(("nvidia0/0", "A2-4C"), "0000:c1:00.4"), (("nvidia0/1", "A2-4C"), "0000:c1:00.5")] ∧
    ¬ KeepsDevices vm chosen := by
  refine ⟨by decide, by decide, by decide, fun hkeeps => ?_⟩
  exact absurd hkeeps.slices (by decide)

end ReadBack

end Kcore.Gpu
