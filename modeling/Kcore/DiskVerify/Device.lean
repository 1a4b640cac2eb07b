import Kcore.Text
import Kcore.Lib.Checks
import Mathlib.Data.String.Basic
import Mathlib.Data.List.Dedup
import Mathlib.Data.List.Sort

/-!
# Devices that are in use

Before it writes to a disk, the tool looks for the disk in `/proc/mounts` and `/proc/swaps` and for holders of the
disk or of its partitions below `/sys/class/block`. The holders are looked up under the name that the path resolves
to. In the listings the path is looked up as it was given, while the kernel writes its own names there, so that a disk
which is given by a link is not found.
-/

namespace Kcore.DiskVerify

structure Host where
  readToString : String → Option String
  readDir : String → Option (List String)
  canonicalize : String → Option String
  canonicalize_idem : ∀ p q, canonicalize p = some q → canonicalize q = some q

/-! ### The check -/

def endsInDigit (s : String) : Bool := s.toList.getLast?.any Char.isDigit

def isDeviceOrPartition (source device : String) : Bool :=
  if source = device then true
  else match stripPrefix source device with
    | none => false
    | some rest =>
      let digits := if endsInDigit device then stripPrefix rest "p" else some rest
      match digits with
      | none => false
      | some digits => digits ≠ "" && digits.toList.all Char.isDigit

def inUse (listing device : String) : Bool :=
  ((lines listing).filterMap fun l => (splitWhitespace l).head?).any fun source => isDeviceOrPartition source device

def fileName (path : String) : Option String :=
  (((splitAll path '/').filter fun s => s ≠ "" && s ≠ ".").getLast?).filter (· ≠ "..")

def hasEntry (host : Host) (dir : String) : Bool := ((host.readDir dir).getD []).any fun _ => true

def checkListing (host : Host) (device file : String) : Except String Unit :=
  if (host.readToString file).any (inUse · device) then
    .error (device ++ " is in use (listed in " ++ file ++ "); refusing to write")
  else .ok ()

def checkPartition (host : Host) (device name part : String) : Except String Unit :=
  if startsWith part name && hasEntry host ("/sys/class/block/" ++ name ++ "/" ++ part ++ "/holders") then
    .error ("a partition of " ++ device ++ " is held by another device; refusing to write")
  else .ok ()

def checkHolders (host : Host) (device name : String) : Except String Unit :=
  if hasEntry host ("/sys/class/block/" ++ name ++ "/holders") then
    .error (device ++ " is held by another device; refusing to write")
  else ((host.readDir ("/sys/class/block/" ++ name)).getD []).forM (checkPartition host device name)

def ensureUnused (host : Host) (device : String) : Except String Unit := do
  ["/proc/mounts", "/proc/swaps"].forM (checkListing host device)
  let real := (host.canonicalize device).getD device
  (fileName real).toList.forM (checkHolders host device)

/-! ### The path of a drive -/

def byIdMatches (name serial : String) : Bool :=
  if serial = "" || textContains name "-part" then false
  else
    let name := String.ofList (name.toList.map Char.toUpper)
    let serial := String.ofList (serial.toList.map Char.toUpper)
    ("_" ++ serial).toList.isSuffixOf name.toList || ("-" ++ serial).toList.isSuffixOf name.toList

def resolveBySerial (host : Host) (serial : String) : Except String String :=
  match host.readDir "/dev/disk/by-id" with
  | none => .error "cannot read /dev/disk/by-id"
  | some entries =>
    let links := (entries.filter (byIdMatches · serial)).filterMap fun name =>
      host.canonicalize ("/dev/disk/by-id/" ++ name)
    match links.dedup.insertionSort (· ≤ ·) with
    | [] => .error ("no disk with serial " ++ serial ++ " found")
    | [one] => .ok one
    | a :: b :: _ => .error ("serial " ++ serial ++ " matches several devices (" ++ a ++ ", " ++ b ++ ", ...)")

def devicePath (host : Host) (device : String) : Except String String :=
  match stripPrefix device "by-serial:" with
  | some serial => resolveBySerial host serial
  | none => .ok device

/-- The path that `run` opens for a phase that writes, after the check. -/
def writablePath (host : Host) (device : String) : Except String String := do
  let path ← devicePath host device
  ensureUnused host path
  pure path

/-! ### Use of a block device -/

/-- The kernel's name of a partition: a `p` stands between a name that ends in a digit and the number. -/
def PartitionOf (part disk : String) : Prop :=
  ∃ number : String, part = disk ++ ((if endsInDigit disk then "p" else "") ++ number) ∧ number ≠ "" ∧
    ∀ c ∈ number.toList, c.isDigit = true

def Listed (host : Host) (device : String) : Prop :=
  ∃ file ∈ ["/proc/mounts", "/proc/swaps"], ∃ text ∈ host.readToString file, ∃ line ∈ lines text,
    ∃ source ∈ (splitWhitespace line).head?, source = device ∨ PartitionOf source device

def Held (host : Host) (device : String) : Prop :=
  ∃ name ∈ fileName device, hasEntry host ("/sys/class/block/" ++ name ++ "/holders") = true ∨
    ∃ part ∈ (host.readDir ("/sys/class/block/" ++ name)).getD [], PartitionOf part name ∧
      hasEntry host ("/sys/class/block/" ++ name ++ "/" ++ part ++ "/holders") = true

/-! ### What the check finds -/

private theorem isDeviceOrPartition_iff (source device : String) :
    isDeviceOrPartition source device = true ↔ source = device ∨ PartitionOf source device := by
  unfold isDeviceOrPartition PartitionOf
  by_cases heq : source = device
  · simp [heq]
  simp only [heq, if_false, false_or]
  cases hrest : stripPrefix source device with
  | none =>
    refine ⟨fun h => (nomatch h), fun ⟨number, hs, _⟩ => ?_⟩
    rw [stripPrefix_eq_some.mpr hs] at hrest
    exact nomatch hrest
  | some rest =>
    have hs := stripPrefix_eq_some.mp hrest
    by_cases hd : endsInDigit device = true
    · simp only [hd, if_true]
      cases hp : stripPrefix rest "p" with
      | none =>
        refine ⟨fun h => (nomatch h), fun ⟨number, hs', _⟩ => ?_⟩
        rw [hs, String.append_right_inj] at hs'
        rw [stripPrefix_eq_some.mpr hs'] at hp
        exact nomatch hp
      | some digits =>
        rw [stripPrefix_eq_some.mp hp] at hs
        simp [hs, String.append_right_inj]
    · simp [hd, hs, String.append_right_inj]

private theorem inUse_iff (text device : String) :
    inUse text device = true ↔ ∃ line ∈ lines text, ∃ source ∈ (splitWhitespace line).head?,
      source = device ∨ PartitionOf source device := by
  simp only [inUse, List.any_eq_true, List.mem_filterMap, isDeviceOrPartition_iff, Option.mem_def]
  exact ⟨fun ⟨source, ⟨line, hl, hs⟩, h⟩ => ⟨line, hl, source, hs, h⟩,
    fun ⟨line, hl, source, hs, h⟩ => ⟨source, ⟨line, hl, hs⟩, h⟩⟩

/-- The holders that the check finds: it takes every entry whose name begins with that of the disk for a partition. -/
def HolderFound (host : Host) (device : String) : Prop :=
  ∃ name ∈ fileName device, hasEntry host ("/sys/class/block/" ++ name ++ "/holders") = true ∨
    ∃ part ∈ (host.readDir ("/sys/class/block/" ++ name)).getD [], startsWith part name = true ∧
      hasEntry host ("/sys/class/block/" ++ name ++ "/" ++ part ++ "/holders") = true

variable {host : Host} {path : String}

private theorem startsWith_of_partitionOf {part name : String} (h : PartitionOf part name) :
    startsWith part name = true := by
  obtain ⟨number, rfl, _⟩ := h
  simp [startsWith]

private theorem holderFound_of_held {device : String} (h : Held host device) : HolderFound host device := by
  obtain ⟨name, hname, h | ⟨part, hpart, hof, h⟩⟩ := h
  · exact ⟨name, hname, .inl h⟩
  · exact ⟨name, hname, .inr ⟨part, hpart, startsWith_of_partitionOf hof, h⟩⟩

private theorem checkListing_ok_iff (host : Host) (device file : String) :
    checkListing host device file = .ok () ↔ ¬∃ text ∈ host.readToString file, inUse text device = true := by
  unfold checkListing
  cases host.readToString file with
  | none => simp
  | some text => simp

private theorem listings_ok_iff (host : Host) (device : String) :
    forM ["/proc/mounts", "/proc/swaps"] (checkListing host device) = .ok () ↔ ¬Listed host device := by
  rw [Checks.forM_eq_ok]
  simp only [checkListing_ok_iff, inUse_iff, Listed]
  push Not
  rfl

private theorem checkHolders_ok_iff (host : Host) (device name : String) :
    checkHolders host device name = .ok () ↔
      ¬(hasEntry host ("/sys/class/block/" ++ name ++ "/holders") = true ∨
        ∃ part ∈ (host.readDir ("/sys/class/block/" ++ name)).getD [], startsWith part name = true ∧
          hasEntry host ("/sys/class/block/" ++ name ++ "/" ++ part ++ "/holders") = true) := by
  unfold checkHolders
  rw [not_or]
  split_ifs with h
  · exact ⟨fun h' => (nomatch h'), fun h' => absurd h h'.1⟩
  · refine Checks.forM_eq_ok.trans ?_
    simp [checkPartition, h]

private theorem ensureUnused_ok_iff {real : String} (hr : host.canonicalize path = some real) :
    ensureUnused host path = .ok () ↔ ¬Listed host path ∧ ¬HolderFound host real := by
  unfold ensureUnused
  rw [Checks.bind_eq_ok, hr, Option.getD_some]
  have hholders : (fileName real).toList.forM (checkHolders host path) = .ok () ↔ ¬HolderFound host real := by
    refine Checks.forM_eq_ok.trans ?_
    simp [checkHolders_ok_iff, HolderFound]
  exact ⟨fun ⟨(), hlist, hhold⟩ => ⟨(listings_ok_iff host path).mp hlist, hholders.mp hhold⟩,
    fun ⟨hlist, hhold⟩ => ⟨(), (listings_ok_iff host path).mpr hlist, hholders.mpr hhold⟩⟩

/-! ### Paths that are names of the kernel -/

def LinkedTo (host : Host) (serial device : String) : Prop :=
  ∃ name ∈ (host.readDir "/dev/disk/by-id").getD [], byIdMatches name serial = true ∧
    host.canonicalize ("/dev/disk/by-id/" ++ name) = some device

private theorem linkedTo_iff {serial : String} (h : resolveBySerial host serial = .ok path) (device : String) :
    LinkedTo host serial device ↔ device = path := by
  unfold resolveBySerial at h
  cases hdir : host.readDir "/dev/disk/by-id" with
  | none => simp [hdir] at h
  | some entries =>
    simp only [hdir] at h
    split at h
    · exact nomatch h
    · rename_i one hone
      cases h
      rw [← List.mem_singleton, ← hone, List.mem_insertionSort, List.mem_dedup, List.mem_filterMap]
      simp only [LinkedTo, hdir, Option.getD_some, List.mem_filter, and_assoc]
    · exact nomatch h

private theorem canonical_of_linkedTo {serial device : String} (h : LinkedTo host serial device) :
    host.canonicalize device = some device := by
  obtain ⟨name, -, -, hname⟩ := h
  exact host.canonicalize_idem _ _ hname

private theorem unused_of_ensureUnused (hpath : host.canonicalize path = some path)
    (h : ensureUnused host path = .ok ()) : ¬Listed host path ∧ ¬Held host path := by
  obtain ⟨hlist, hhold⟩ := (ensureUnused_ok_iff hpath).mp h
  exact ⟨hlist, fun hheld => hhold (holderFound_of_held hheld)⟩

/-! ### Any path -/

private theorem writablePath_eq_ok {device : String} :
    writablePath host device = .ok path ↔ devicePath host device = .ok path ∧ ensureUnused host path = .ok () := by
  unfold writablePath
  simp only [Checks.bind_eq_ok]
  constructor
  · rintro ⟨p, hp, u, hun, heq⟩
    cases heq
    exact ⟨hp, hun⟩
  · exact fun ⟨hp, hun⟩ => ⟨path, hp, (), hun, rfl⟩

/-- The path that is opened names an unused device, whatever device is given, exactly if a device that the listings hold
under the kernel's name stands there under the given path too, or has holders. -/
theorem writablePath_unused_iff (host : Host) (device : String) :
    (∀ path real, writablePath host device = .ok path → host.canonicalize path = some real →
      ¬Listed host real ∧ ¬Held host real) ↔
    ∀ path real, devicePath host device = .ok path → host.canonicalize path = some real → Listed host real →
      Listed host path ∨ HolderFound host real := by
  constructor
  · intro h path real hpath hr hreal
    by_contra hcon
    have hok : ensureUnused host path = .ok () := (ensureUnused_ok_iff hr).mpr (not_or.mp hcon)
    exact (h path real (writablePath_eq_ok.mpr ⟨hpath, hok⟩) hr).1 hreal
  · intro h path real hpath hr
    obtain ⟨hdev, hok⟩ := writablePath_eq_ok.mp hpath
    obtain ⟨hlist, hhold⟩ := (ensureUnused_ok_iff hr).mp hok
    refine ⟨fun hreal => ?_, fun hheld => hhold (holderFound_of_held hheld)⟩
    exact (h path real hdev hr hreal).elim hlist hhold

/-- The root disk, its first partition mounted, with a link to it below `by-id`. -/
def linkedRoot : Host where
  readToString file := if file = "/proc/mounts" then some "/dev/sda1 / ext4 rw 0 0" else none
  readDir dir := if dir = "/dev/disk/by-id" then some ["ata-DISK_S1"] else none
  canonicalize path := if path = "/dev/disk/by-id/ata-DISK_S1" || path = "/dev/sda" then some "/dev/sda" else none
  canonicalize_idem p q h := by
    split_ifs at h with hp
    cases h
    rfl

private theorem listed_linkedRoot : Listed linkedRoot "/dev/sda" := by
  refine ⟨"/proc/mounts", by simp, "/dev/sda1 / ext4 rw 0 0", rfl, "/dev/sda1 / ext4 rw 0 0", by decide,
    "/dev/sda1", by decide, ?_⟩
  exact .inr ⟨"1", by decide, by decide, fun c hc => List.mem_singleton.mp hc ▸ rfl⟩

/-- The link passes the check while a partition of the disk is mounted. -/
theorem writablePath_of_link : ¬∀ path real, writablePath linkedRoot "/dev/disk/by-id/ata-DISK_S1" = .ok path →
    linkedRoot.canonicalize path = some real → ¬Listed linkedRoot real ∧ ¬Held linkedRoot real := by
  intro h
  exact (h "/dev/disk/by-id/ata-DISK_S1" "/dev/sda" (by decide) (by decide)).1 listed_linkedRoot

-- Given by its serial number, the same disk is refused.
example : writablePath linkedRoot "by-serial:s1" =
    .error "/dev/sda is in use (listed in /proc/mounts); refusing to write" := by
  decide

/-- What is opened for writing under a serial number is the only device with that number, and neither it nor a partition
of it is mounted, used for swapping or held. -/
theorem by_serial_opens_unused {host : Host} {serial path : String}
    (h : writablePath host ("by-serial:" ++ serial) = .ok path) :
    (∀ device, LinkedTo host serial device ↔ device = path) ∧ ¬Listed host path ∧ ¬Held host path := by
  obtain ⟨hpath, hunused⟩ := writablePath_eq_ok.mp h
  rw [devicePath, stripPrefix_eq_some.mpr rfl] at hpath
  have honly := linkedTo_iff hpath
  exact ⟨honly, unused_of_ensureUnused (canonical_of_linkedTo ((honly path).mpr rfl)) hunused⟩

/-- The system is on another disk, and so is the swap space. -/
def linkedSpare : Host :=
  { linkedRoot with
    readToString := fun file =>
      if file = "/proc/mounts" then some "/dev/sdb1 / ext4 rw 0 0" else some "Filename Type\n/dev/sdb2 partition" }

theorem spare_opened : writablePath linkedSpare "by-serial:s1" = .ok "/dev/sda" ∧
    ¬Listed linkedSpare "/dev/sda" ∧ ¬Held linkedSpare "/dev/sda" :=
  ⟨by decide, (@by_serial_opens_unused linkedSpare "s1" _ (by decide)).2⟩

end Kcore.DiskVerify
