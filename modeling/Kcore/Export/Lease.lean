import Kcore.Lib.Checks
import Kcore.Lib.Run
import Kcore.Text

/-!
# Leases on snapshot devices

`expose_snapshot` attaches the device of a snapshot and enters a lease for it in a table; `unexpose_snapshot` takes the
lease out and runs the commands that detach the device. A lease also leaves the table when it has expired and is looked
up, or is swept.

A call attaches first and enters the lease later, or takes the lease out first and detaches later; other calls come in
between. `kept_along` gives the interleavings in which a leased device stays attached and no other one does.
-/

namespace Kcore.Export

open Checks Machine

/-! ### Requests -/

inductive StorageClass where
  | ceph
  | zfs
  | lvm
  | filesystem
  deriving DecidableEq

def StorageClass.parse (raw : String) : Except String StorageClass :=
  let s := toAsciiLowercase (trim raw)
  if s = "" ∨ s = "ceph" then .ok .ceph
  else if s = "zfs" then .ok .zfs
  else if s = "lvm" then .ok .lvm
  else if s = "filesystem" ∨ s = "fs" then .ok .filesystem
  else .error ("unknown storage_class '" ++ s ++ "'")

def StorageClass.inferFromHandle (handle : String) : StorageClass :=
  let h := trim handle
  if startsWith h "/dev/zvol/" then .zfs
  else if startsWith h "/dev/" then .lvm
  else if startsWith h "/" then .filesystem
  else .ceph

def resolveStorageClass (explicit backendHandle : String) : Except String StorageClass :=
  if trim explicit = "" then .ok (.inferFromHandle backendHandle) else StorageClass.parse explicit

def validateSnapshotName (name : String) : Except String String := do
  let n := trim name
  check (n ≠ "") "snapshot_name is required"
  check (n.utf8ByteSize ≤ 128) "snapshot_name must be at most 128 characters"
  check (n.toList.all fun c => c.isAlphanum || c = '-' || c = '_' || c = '.')
    "snapshot_name must be ASCII alphanumeric, '-', '_' or '.'"
  .ok n

def validatePoolImageHandle (handle : String) : Except String (String × String) := do
  let h := trim handle
  check (h ≠ "" && !startsWith h "/" && h.toList.contains '/')
    "backend_handle must be pool/image (or pool/dataset, vg/lv)"
  match splitOnce h '/' with
  | none => .error "backend_handle must be pool/image"
  | some (pool, image) => do
    check (pool ≠ "" && image ≠ "" && !pool.toList.contains '/' && !image.toList.contains '/' && pool ≠ ".." &&
      image ≠ "..")
      "backend_handle must be a single pool/image pair"
    .ok (pool, image)

/-- `lease_duration`, with the default of 900 seconds and the limit of a day. -/
def leaseDuration (seconds : Int) : Except String Nat :=
  let secs := if seconds ≤ 0 then 900 else seconds
  if 86400 < secs then .error "lease_seconds must be <= 86400" else .ok secs.toNat

/-- A request to expose a snapshot, when its texts have been checked. -/
structure Request where
  storageClass : StorageClass
  backendHandle : String
  pool : String
  image : String
  snap : String
  leaseSeconds : Int
  deriving DecidableEq

/-- The checks of `expose_snapshot` before its first command. -/
def Request.of (storageClass backendHandle snapshotName : String) (leaseSeconds : Int) : Except String Request := do
  let storageClass ← resolveStorageClass storageClass backendHandle
  let snap ← validateSnapshotName snapshotName
  check (storageClass ≠ .filesystem) "filesystem volumes have no snapshots"
  let (pool, image) ← validatePoolImageHandle backendHandle
  .ok ⟨storageClass, trim backendHandle, pool, image, snap, leaseSeconds⟩

/-! ### Commands -/

/-- The commands: `rbd-nbd map --read-only`, `rbd-nbd unmap`, `lvchange -ay -K`, `lvchange -an` and
`zfs set snapdev=visible`. -/
inductive Command where
  | map (spec device : String)
  | unmap (device : String)
  | activate (lv : String)
  | deactivate (lv : String)
  | showDevices (dataset : String)

/-- The devices of the host: the nbd devices with what they are mapped to, the logical volumes that are active, and
the datasets whose snapshots have device nodes. -/
structure Host where
  mapped : List (String × String)
  active : List String
  visible : List String

def Host.present (h : Host) (path : String) : Bool :=
  h.mapped.any (·.1 = path) || h.active.any (· = path) ||
    h.visible.any fun dataset => startsWith path ("/dev/zvol/" ++ dataset ++ "@")

def Host.run (h : Host) : Command → Host
  | .map spec device => { h with mapped := (device, spec) :: h.mapped }
  | .unmap device => { h with mapped := h.mapped.filter (·.1 ≠ device) }
  | .activate lv => { h with active := ("/dev/" ++ lv) :: h.active }
  | .deactivate lv => { h with active := h.active.filter (· ≠ "/dev/" ++ lv) }
  | .showDevices dataset => { h with visible := dataset :: h.visible }

def Command.frees : Command → Option String
  | .unmap device => some device
  | .deactivate lv => some ("/dev/" ++ lv)
  | _ => none

structure SnapshotLease where
  leaseId : String
  storageClass : StorageClass
  backendHandle : String
  snapshotName : String
  devicePath : String
  expiresAt : Nat
  deriving DecidableEq

def unexposeSnapshotCommandPlan (storageClass : StorageClass) (backendHandle snapshotName devicePath : String) :
    Except String (List Command) := do
  let snap ← validateSnapshotName snapshotName
  match storageClass with
  | .ceph =>
    let device := trim devicePath
    check (device ≠ "" && startsWith device "/dev/") "ceph unexpose needs a /dev/nbdN device_path"
    .ok [.unmap device]
  -- the device nodes of the dataset stay
  | .zfs => .ok []
  | .lvm => do
    let (vg, _) ← validatePoolImageHandle backendHandle
    .ok [.deactivate (vg ++ "/" ++ snap)]
  | .filesystem => .ok []

/-! ### Calls -/

/-- What is left of a call: the list of mappings is to be read, the command that attaches is to be run, the lease is
to be entered, or the commands that detach are to be run. -/
inductive Call where
  | look (req : Request)
  | attach (req : Request)
  | register (req : Request) (devicePath : String)
  | release (lease : SnapshotLease)
  deriving DecidableEq

/-- How a command that attaches ends. The kernel chooses the nbd device, and `rbd-nbd` may fail to print it. -/
inductive Outcome where
  | failed
  | attached (device : String)
  | unprinted (device : String)

/-- The host, the table, the calls that are going on and the time. `ours` is for the statements only: the devices that
were attached by `expose_snapshot` and not detached since. -/
structure State where
  host : Host
  leases : List SnapshotLease
  calls : List Call
  now : Nat
  ours : List String

inductive Act where
  | expose (storageClass backendHandle snapshotName : String) (leaseSeconds : Int)
  | look (req : Request) (listed : Bool)
  | attach (req : Request) (outcome : Outcome)
  | register (req : Request) (devicePath leaseId : String)
  | unexpose (leaseId : String)
  | release (lease : SnapshotLease) (succeeds : Bool)
  | lookup (leaseId : String)
  | expireDue
  | tick (seconds : Nat)

/-- The command for a request, and the path of the device that it gives. `Request.of` refuses a file system. -/
def Request.command (req : Request) (device : String) : Command × String :=
  match req.storageClass with
  | .ceph => (.map (req.pool ++ "/" ++ req.image ++ "@" ++ req.snap) device, device)
  | .zfs => (.showDevices (req.pool ++ "/" ++ req.image),
      "/dev/zvol/" ++ (req.pool ++ "/" ++ req.image) ++ "@" ++ req.snap)
  | .lvm => (.activate (req.pool ++ "/" ++ req.snap), "/dev/" ++ (req.pool ++ "/" ++ req.snap))
  | .filesystem => (.unmap device, device)

def Host.offers (h : Host) (device : String) : Bool :=
  startsWith device "/dev/" && trim device = device && !h.mapped.any (·.1 = device)

def State.attached (s : State) (req : Request) (device : String) (calls : List Call) : State :=
  { s with
    host := s.host.run (req.command device).1
    calls := calls
    ours := if s.host.present (req.command device).2 then s.ours else (req.command device).2 :: s.ours }

def State.attach (s : State) (req : Request) : Outcome → State
  | .failed => { s with calls := s.calls.erase (.attach req) }
  | .attached device =>
    if req.storageClass = .ceph ∧ s.host.offers device = false then { s with calls := s.calls.erase (.attach req) }
    else s.attached req device (.register req (req.command device).2 :: s.calls.erase (.attach req))
  | .unprinted device =>
    if req.storageClass = .ceph ∧ s.host.offers device = true then s.attached req device (s.calls.erase (.attach req))
    else { s with calls := s.calls.erase (.attach req) }

def State.register (s : State) (req : Request) (devicePath leaseId : String) : State :=
  match leaseDuration req.leaseSeconds with
  | .error _ => { s with calls := s.calls.erase (.register req devicePath) }
  | .ok duration =>
    { s with
      leases := ⟨leaseId, req.storageClass, req.backendHandle, req.snap, devicePath, s.now + duration⟩ ::
        s.leases.filter (·.leaseId ≠ leaseId)
      calls := s.calls.erase (.register req devicePath) }

def State.release (s : State) (lease : SnapshotLease) (succeeds : Bool) : State :=
  let calls := s.calls.erase (.release lease)
  match unexposeSnapshotCommandPlan lease.storageClass lease.backendHandle lease.snapshotName lease.devicePath with
  | .error _ => { s with calls := calls }
  | .ok plan =>
    if succeeds then
      { s with
        host := plan.foldl Host.run s.host
        calls := calls
        ours := s.ours.filter fun path => !plan.any (·.frees = some path) }
    else { s with calls := calls }

def State.without (s : State) (leaseId : String) : List SnapshotLease := s.leases.filter (·.leaseId ≠ leaseId)

def State.find (s : State) (leaseId : String) : Option SnapshotLease := s.leases.find? (·.leaseId = leaseId)

def State.step (s : State) : Act → State
  | .expose storageClass backendHandle snapshotName leaseSeconds =>
    match Request.of storageClass backendHandle snapshotName leaseSeconds with
    | .error _ => s
    | .ok req => { s with calls := (if req.storageClass = .ceph then .look req else .attach req) :: s.calls }
  | .look req listed =>
    if .look req ∈ s.calls then
      let spec := req.pool ++ "/" ++ req.image ++ "@" ++ req.snap
      let next : Call := match s.host.mapped.find? fun m => listed && m.2 = spec with
        | some m => .register req m.1
        | none => .attach req
      { s with calls := next :: s.calls.erase (.look req) }
    else s
  | .attach req outcome => if .attach req ∈ s.calls then s.attach req outcome else s
  | .register req devicePath leaseId =>
    if .register req devicePath ∈ s.calls then s.register req devicePath leaseId else s
  | .unexpose leaseId =>
    match s.find leaseId with
    | none => s
    | some lease => { s with leases := s.without leaseId, calls := .release lease :: s.calls }
  | .release lease succeeds => if .release lease ∈ s.calls then s.release lease succeeds else s
  | .lookup leaseId =>
    match s.find leaseId with
    | none => s
    | some lease => if lease.expiresAt ≤ s.now then { s with leases := s.without leaseId } else s
  | .expireDue => { s with leases := s.leases.filter (s.now < ·.expiresAt) }
  | .tick seconds => { s with now := s.now + seconds }

/-! ### The table -/

def Act.leaves (leaseId : String) : Act → Bool
  | .unexpose id => id ≠ leaseId
  | .register _ _ id => id ≠ leaseId
  | _ => true

/-- The lease is the only one in the table that may have its id, and it is there until it expires. -/
structure Stays (lease : SnapshotLease) (s : State) : Prop where
  only : ∀ l ∈ s.leases, l.leaseId = lease.leaseId → l = lease
  stays : s.now < lease.expiresAt → lease ∈ s.leases

theorem Stays.step {s : State} {lease : SnapshotLease} (h : Stays lease s) {a : Act}
    (ha : a.leaves lease.leaseId = true) : Stays lease (s.step a) := by
  have hwithout : ∀ id, (s.now < lease.expiresAt → id ≠ lease.leaseId) →
      Stays lease { s with leases := s.without id } := fun id hid =>
    ⟨fun l hl => h.only l (List.mem_of_mem_filter hl),
      fun hnow => List.mem_filter.mpr ⟨h.stays hnow, decide_eq_true (Ne.symm (hid hnow))⟩⟩
  cases a with
  | expose storageClass backendHandle snapshotName leaseSeconds =>
    simp only [State.step]
    split <;> exact ⟨h.only, h.stays⟩
  | look req listed =>
    simp only [State.step]
    split_ifs <;> exact ⟨h.only, h.stays⟩
  | attach req outcome =>
    simp only [State.step]
    split_ifs
    · cases outcome <;> simp only [State.attach] <;> (try split_ifs) <;> exact ⟨h.only, h.stays⟩
    · exact h
  | register req devicePath leaseId =>
    have hid : leaseId ≠ lease.leaseId := of_decide_eq_true ha
    have hrest := hwithout leaseId fun _ => hid
    simp only [State.step, State.register]
    split_ifs
    · split
      · exact ⟨h.only, h.stays⟩
      · exact ⟨List.forall_mem_cons.mpr ⟨fun hsame => absurd hsame hid, hrest.only⟩,
          fun hnow => List.mem_cons_of_mem _ (hrest.stays hnow)⟩
    · exact h
  | unexpose leaseId =>
    have hrest := hwithout leaseId fun _ => of_decide_eq_true ha
    simp only [State.step]
    split
    · exact h
    · exact ⟨hrest.only, hrest.stays⟩
  | release given succeeds =>
    simp only [State.step, State.release]
    split_ifs
    · split <;> exact ⟨h.only, h.stays⟩
    · split <;> exact ⟨h.only, h.stays⟩
    · exact h
  | lookup leaseId =>
    simp only [State.step]
    split
    · exact h
    · rename_i found hfind
      split_ifs with hexpired
      · refine hwithout leaseId fun hnow hid => ?_
        -- the lease that is found under the id is this one, which has not expired
        have hfound := List.find?_some hfind
        have hsame := h.only found (List.mem_of_find?_eq_some hfind) ((of_decide_eq_true hfound).trans hid)
        exact absurd hnow (Nat.not_lt.mpr (hsame ▸ hexpired))
      · exact h
  | expireDue =>
    exact ⟨fun l hl => h.only l (List.mem_of_mem_filter hl),
      fun hnow => List.mem_filter.mpr ⟨h.stays hnow, decide_eq_true hnow⟩⟩
  | tick seconds => exact ⟨h.only, fun hnow => h.stays ((Nat.le_add_right _ _).trans_lt hnow)⟩

/-- A lease that is not given back stays in the table, as it is, until it expires. -/
theorem lease_stays {s : State} {lease : SnapshotLease} (hmem : lease ∈ s.leases)
    (honly : ∀ l ∈ s.leases, l.leaseId = lease.leaseId → l = lease) {acts : List Act}
    (hacts : ∀ a ∈ acts, a.leaves lease.leaseId = true)
    (hnow : (run State.step s acts).now < lease.expiresAt) : lease ∈ (run State.step s acts).leases := by
  have hall := along_of_each (P := Stays lease) (s := s) ⟨honly, fun _ => hmem⟩ (fun _ _ h ha => h.step ha)
    (each_of_mem fun _ a ha => hacts a ha)
  exact hall.last.stays hnow

theorem lease_stays_a_minute :
    let lease : SnapshotLease := ⟨"lease-1", .ceph, "rbd/vm1", "nightly", "/dev/nbd0", 900⟩
    lease ∈ (run State.step ⟨⟨[], [], []⟩, [lease], [], 0, []⟩ [.tick 60, .expireDue]).leases :=
  lease_stays (List.mem_singleton.mpr rfl) (by simp) (by decide) (by decide)

/-! ### Leased devices -/

def names (leases : List SnapshotLease) (path : String) : Bool := leases.any (·.devicePath = path)

def Call.holds (path : String) : Call → Bool
  | .register _ devicePath => devicePath = path
  | .release lease => lease.storageClass ≠ .zfs && lease.devicePath = path
  | _ => false

def Call.registers (path : String) : Call → Bool
  | .register _ devicePath => devicePath = path
  | _ => false

/-- The device of a lease that has not expired is attached; and a device that was attached for a lease is detached
unless a lease names it or a call that is going on is about to enter a lease for it or to detach it. -/
structure Kept (s : State) : Prop where
  attached : ∀ lease ∈ s.leases, s.now < lease.expiresAt → s.host.present lease.devicePath = true
  released : ∀ path ∈ s.ours, names s.leases path = true ∨ ∃ call ∈ s.calls, call.holds path = true

/-- A map prints its device. A lease that is entered has an allowed period, or its device is leased already, and it has
a new id. A lease that leaves the table without a command to detach its device leaves another one for the device behind.
A command that detaches succeeds, and no lease that has not expired names the device or is about to. -/
def Orderly (s : State) : Act → Bool
  | .attach req (.unprinted _) => req.storageClass ≠ .ceph
  | .register req devicePath leaseId =>
    ((leaseDuration req.leaseSeconds).isOk || names s.leases devicePath) && (s.find leaseId).isNone
  | .unexpose leaseId =>
    match s.find leaseId with
    | none => true
    | some lease => lease.storageClass ≠ .zfs || names (s.without leaseId) lease.devicePath
  | .release lease succeeds =>
    lease.storageClass = .zfs || succeeds && !s.calls.any (·.registers lease.devicePath) &&
      !s.leases.any fun l => l.devicePath = lease.devicePath && s.now < l.expiresAt
  | .lookup leaseId =>
    match s.find leaseId with
    | none => true
    | some lease => s.now < lease.expiresAt || names (s.without leaseId) lease.devicePath
  | .expireDue => s.leases.all fun lease => names (s.leases.filter (s.now < ·.expiresAt)) lease.devicePath
  | _ => true

/-! ### Plans -/

def Formed (storageClass : StorageClass) (backendHandle snap devicePath : String) : Prop :=
  ∃ plan, unexposeSnapshotCommandPlan storageClass backendHandle snap devicePath = .ok plan ∧
    (storageClass = .zfs → plan = []) ∧
      (storageClass ≠ .zfs → ∃ command, plan = [command] ∧ command.frees = some devicePath)

structure Request.Valid (req : Request) : Prop where
  snap : validateSnapshotName req.snap = .ok req.snap
  handle : validatePoolImageHandle req.backendHandle = .ok (req.pool, req.image)
  device : req.storageClass ≠ .filesystem

def IsDevice (device : String) : Prop := trim device = device ∧ startsWith device "/dev/" = true

theorem validateSnapshotName_idem {name snap : String} (h : validateSnapshotName name = .ok snap) :
    validateSnapshotName snap = .ok snap := by
  have hsnap : trim name = snap := by
    simp only [validateSnapshotName, bind_eq_ok, check_eq_ok, Except.ok.injEq] at h
    obtain ⟨_, _, _, _, _, _, hsnap⟩ := h
    exact hsnap
  have htrim : trim snap = trim name := by rw [← hsnap, trim_trim]
  unfold validateSnapshotName at h ⊢
  rwa [htrim]

theorem validatePoolImageHandle_trim (handle : String) :
    validatePoolImageHandle (trim handle) = validatePoolImageHandle handle := by
  unfold validatePoolImageHandle
  rw [trim_trim]

theorem Request.of_valid {storageClass backendHandle snapshotName : String} {leaseSeconds : Int} {req : Request}
    (h : Request.of storageClass backendHandle snapshotName leaseSeconds = .ok req) : req.Valid := by
  obtain ⟨cls, -, h⟩ := bind_eq_ok.mp h
  obtain ⟨snap, hsnap, h⟩ := bind_eq_ok.mp h
  obtain ⟨_, hcls, h⟩ := bind_eq_ok.mp h
  obtain ⟨⟨pool, image⟩, hpool, h⟩ := bind_eq_ok.mp h
  cases h
  have hne := check_eq_ok.mp hcls
  exact ⟨validateSnapshotName_idem hsnap, (validatePoolImageHandle_trim _).trans hpool, by simpa using hne⟩

theorem Request.Valid.formed {req : Request} (h : req.Valid) (device : String)
    (hdevice : req.storageClass = .ceph → IsDevice device) :
    Formed req.storageClass req.backendHandle req.snap (req.command device).2 := by
  unfold Formed Request.command
  cases hcls : req.storageClass with
  | ceph =>
    obtain ⟨htrim, hstart⟩ := hdevice hcls
    have hne : device ≠ "" := by
      rintro rfl
      exact absurd hstart (by decide)
    refine ⟨[.unmap device], bind_eq_ok.mpr ⟨req.snap, h.snap, bind_eq_ok.mpr ⟨(), check_eq_ok.mpr ?_, ?_⟩⟩,
      fun hz => (by cases hz), fun _ => ⟨.unmap device, rfl, rfl⟩⟩
    · rw [htrim, hstart, decide_eq_true hne]
      rfl
    · rw [htrim]
  | zfs => exact ⟨[], bind_eq_ok.mpr ⟨req.snap, h.snap, rfl⟩, fun _ => rfl, fun hz => absurd rfl hz⟩
  | lvm =>
    exact ⟨[.deactivate (req.pool ++ "/" ++ req.snap)],
      bind_eq_ok.mpr ⟨req.snap, h.snap, bind_eq_ok.mpr ⟨(req.pool, req.image), h.handle, rfl⟩⟩,
      fun hz => (by cases hz), fun _ => ⟨_, rfl, rfl⟩⟩
  | filesystem => exact absurd hcls h.device

/-! ### Devices that come and go -/

section Present

variable {h : Host} {req : Request} {device path : String}

theorem present_command (hfs : req.storageClass ≠ .filesystem) (hpath : h.present path = true) :
    (h.run (req.command device).1).present path = true := by
  simp only [Host.present, Bool.or_eq_true] at hpath ⊢
  unfold Request.command
  cases hcls : req.storageClass with
  | ceph =>
    rcases hpath with (hm | ha) | hv
    · exact .inl (.inl (by simp [Host.run, hm]))
    · exact .inl (.inr ha)
    · exact .inr hv
  | zfs =>
    rcases hpath with hd | hv
    · exact .inl hd
    · exact .inr (by simp [Host.run, hv])
  | lvm =>
    rcases hpath with (hm | ha) | hv
    · exact .inl (.inl hm)
    · exact .inl (.inr (by simp [Host.run, ha]))
    · exact .inr hv
  | filesystem => exact absurd hcls hfs

theorem startsWith_append (p s : String) : startsWith (p ++ s) p = true := by
  unfold startsWith
  rw [List.isPrefixOf_iff_prefix, String.toList_append]
  exact List.prefix_append _ _

theorem present_command_self (hfs : req.storageClass ≠ .filesystem) :
    (h.run (req.command device).1).present (req.command device).2 = true := by
  unfold Request.command
  cases hcls : req.storageClass with
  | ceph => simp [Host.run, Host.present]
  | zfs => simp [Host.run, Host.present, startsWith_append]
  | lvm => simp [Host.run, Host.present]
  | filesystem => exact absurd hcls hfs

theorem present_of_frees {command : Command} (hfree : command.frees = some device) (hne : path ≠ device)
    (hpath : h.present path = true) : (h.run command).present path = true := by
  simp only [Host.present, Bool.or_eq_true] at hpath ⊢
  cases command with
  | unmap d =>
    obtain rfl : d = device := Option.some.inj hfree
    rcases hpath with (hm | ha) | hv
    · left; left
      obtain ⟨m, hm, hmp⟩ := List.any_eq_true.mp hm
      have hmp' : m.1 = path := of_decide_eq_true hmp
      refine List.any_eq_true.mpr ⟨m, List.mem_filter.mpr ⟨hm, decide_eq_true ?_⟩, hmp⟩
      rw [hmp']
      exact hne
    · exact .inl (.inr ha)
    · exact .inr hv
  | deactivate lv =>
    obtain rfl : "/dev/" ++ lv = device := Option.some.inj hfree
    rcases hpath with (hm | ha) | hv
    · exact .inl (.inl hm)
    · left; right
      obtain ⟨p, hp, hpp⟩ := List.any_eq_true.mp ha
      have hpp' : p = path := of_decide_eq_true hpp
      refine List.any_eq_true.mpr ⟨p, List.mem_filter.mpr ⟨hp, decide_eq_true ?_⟩, hpp⟩
      rw [hpp']
      exact hne
    · exact .inr hv
  | _ => cases hfree

end Present

/-! ### The invariant -/

def Call.Formed : Call → Prop
  | .look req => req.Valid ∧ req.storageClass = .ceph
  | .attach req => req.Valid
  | .register req devicePath => Export.Formed req.storageClass req.backendHandle req.snap devicePath
  | .release lease =>
    Export.Formed lease.storageClass lease.backendHandle lease.snapshotName lease.devicePath

def Held (leases : List SnapshotLease) (calls : List Call) (path : String) : Prop :=
  names leases path = true ∨ ∃ call ∈ calls, call.holds path = true

structure Inv (s : State) : Prop where
  attached : ∀ lease ∈ s.leases, s.now < lease.expiresAt → s.host.present lease.devicePath = true
  registering : ∀ req path, .register req path ∈ s.calls → s.host.present path = true
  held : ∀ path ∈ s.ours, Held s.leases s.calls path
  leases : ∀ lease ∈ s.leases,
    Formed lease.storageClass lease.backendHandle lease.snapshotName lease.devicePath
  calls : ∀ call ∈ s.calls, call.Formed
  devices : ∀ m ∈ s.host.mapped, IsDevice m.1
  ids : ∀ l ∈ s.leases, ∀ l' ∈ s.leases, l.leaseId = l'.leaseId → l = l'

theorem Held.mono {leases leases' : List SnapshotLease} {calls calls' : List Call} {path : String}
    (h : Held leases calls path) (hleases : names leases path = true → Held leases' calls' path)
    (hcalls : ∀ call ∈ calls, call.holds path = true → Held leases' calls' path) : Held leases' calls' path := by
  rcases h with hnamed | ⟨call, hcall, hholds⟩
  · exact hleases hnamed
  · exact hcalls call hcall hholds

theorem mem_erase_of_holds {calls : List Call} {call done : Call} {path : String} (hcall : call ∈ calls)
    (hholds : call.holds path = true) (hdone : done.holds path = false) : call ∈ calls.erase done := by
  refine (List.mem_erase_of_ne fun heq => ?_).mpr hcall
  rw [heq, hdone] at hholds
  cases hholds

section Preserved

variable {s : State} {calls : List Call} {lease : SnapshotLease} {req : Request} {path : String}

theorem Inv.drop (h : Inv s) {leases : List SnapshotLease} (hsub : ∀ l ∈ leases, l ∈ s.leases)
    (hcalls : ∀ call ∈ s.calls, call ∈ calls) (hformed : ∀ call ∈ calls, call.Formed)
    (hregister : ∀ req path, .register req path ∈ calls → .register req path ∈ s.calls)
    (hheld : ∀ path, names s.leases path = true → Held leases calls path) :
    Inv { s with leases := leases, calls := calls } where
  attached l hl := h.attached l (hsub l hl)
  registering req path hcall := h.registering req path (hregister req path hcall)
  held path hpath := (h.held path hpath).mono (hheld path) fun call hcall hholds =>
    .inr ⟨call, hcalls call hcall, hholds⟩
  leases l hl := h.leases l (hsub l hl)
  calls := hformed
  devices := h.devices
  ids l hl l' hl' := h.ids l (hsub l hl) l' (hsub l' hl')

theorem Inv.setCalls (h : Inv s) {done : Call} (next : List Call) (hformed : ∀ call ∈ next, call.Formed)
    (hregister : ∀ req path, .register req path ∈ next → s.host.present path = true)
    (hdone : ∀ path ∈ s.ours, done.holds path = true → Held s.leases (next ++ s.calls.erase done) path) :
    Inv { s with calls := next ++ s.calls.erase done } where
  attached := h.attached
  registering req path hcall := by
    rcases List.mem_append.mp hcall with hnext | hold
    · exact hregister req path hnext
    · exact h.registering req path (List.mem_of_mem_erase hold)
  held path hpath := by
    refine (h.held path hpath).mono .inl fun call hcall hholds => ?_
    cases hd : done.holds path with
    | false => exact .inr ⟨call, List.mem_append_right _ (mem_erase_of_holds hcall hholds hd), hholds⟩
    | true => exact hdone path hpath hd
  leases := h.leases
  calls call hcall := by
    rcases List.mem_append.mp hcall with hnext | hold
    · exact hformed call hnext
    · exact h.calls call (List.mem_of_mem_erase hold)
  devices := h.devices
  ids := h.ids

theorem Inv.endCall (h : Inv s) {done : Call}
    (hdone : ∀ path ∈ s.ours, done.holds path = true → Held s.leases (s.calls.erase done) path) :
    Inv { s with calls := s.calls.erase done } :=
  h.setCalls [] (fun _ hnext => absurd hnext List.not_mem_nil) (fun _ _ hnext => absurd hnext List.not_mem_nil) hdone

theorem Inv.attached_call (h : Inv s) {device : String} (hvalid : req.Valid)
    (hdevice : req.storageClass = .ceph → IsDevice device) :
    Inv (s.attached req device (.register req (req.command device).2 :: s.calls.erase (.attach req))) where
  attached l hl hnow := present_command hvalid.device (h.attached l hl hnow)
  registering req' path hcall := by
    rcases List.mem_cons.mp hcall with hnew | hold
    · cases hnew
      exact present_command_self hvalid.device
    · exact present_command hvalid.device (h.registering req' path (List.mem_of_mem_erase hold))
  held path hpath := by
    have hnew : path = (req.command device).2 ∨ path ∈ s.ours := by
      simp only [State.attached] at hpath
      split_ifs at hpath
      · exact .inr hpath
      · exact List.mem_cons.mp hpath
    rcases hnew with rfl | hold
    · exact .inr ⟨_, List.mem_cons_self, decide_eq_true rfl⟩
    · refine (h.held path hold).mono .inl fun call hcall hholds => ?_
      exact .inr ⟨call, List.mem_cons_of_mem _ (mem_erase_of_holds hcall hholds rfl), hholds⟩
  leases := h.leases
  calls call hcall := by
    rcases List.mem_cons.mp hcall with rfl | hold
    · exact hvalid.formed device hdevice
    · exact h.calls call (List.mem_of_mem_erase hold)
  devices m hm := by
    unfold State.attached Request.command at hm
    cases hcls : req.storageClass with
    | ceph =>
      simp only [hcls, Host.run] at hm
      rcases List.mem_cons.mp hm with rfl | hm
      · exact hdevice hcls
      · exact h.devices m hm
    | filesystem => exact absurd hcls hvalid.device
    | _ =>
      simp only [hcls, Host.run] at hm
      exact h.devices m hm
  ids := h.ids

theorem Inv.expose (h : Inv s) (storageClass backendHandle snapshotName : String) (leaseSeconds : Int) :
    Inv (s.step (.expose storageClass backendHandle snapshotName leaseSeconds)) := by
  simp only [State.step]
  cases hreq : Request.of storageClass backendHandle snapshotName leaseSeconds with
  | error e => exact h
  | ok req =>
    have hvalid := Request.of_valid hreq
    refine h.drop (fun _ hl => hl) (fun _ hcall => List.mem_cons_of_mem _ hcall) (fun call hcall => ?_)
      (fun req' path hcall => ?_) fun path hnamed => .inl hnamed
    · rcases List.mem_cons.mp hcall with rfl | hold
      · split_ifs with hceph
        · exact ⟨hvalid, hceph⟩
        · exact hvalid
      · exact h.calls call hold
    · rcases List.mem_cons.mp hcall with hnew | hold
      · split_ifs at hnew
      · exact hold

theorem Inv.look (h : Inv s) (req : Request) (listed : Bool) : Inv (s.step (.look req listed)) := by
  simp only [State.step]
  split_ifs with hcall
  · obtain ⟨hvalid, hceph⟩ : req.Valid ∧ req.storageClass = .ceph := h.calls _ hcall
    cases hfind : s.host.mapped.find? fun m => listed && m.2 = req.pool ++ "/" ++ req.image ++ "@" ++ req.snap with
    | none =>
      refine h.setCalls [.attach req] (fun call hnext => ?_) (fun req' path hnext => ?_) fun path _ hd => by cases hd
      · rw [List.mem_singleton.mp hnext]
        exact hvalid
      · cases List.mem_singleton.mp hnext
    | some m =>
      have hm := List.mem_of_find?_eq_some hfind
      have hpath : (req.command m.1).2 = m.1 := by simp [Request.command, hceph]
      refine h.setCalls [.register req m.1] (fun call hnext => ?_) (fun req' path hnext => ?_)
        fun path _ hd => by cases hd
      · rw [List.mem_singleton.mp hnext]
        have hformed := hvalid.formed m.1 fun _ => h.devices m hm
        rwa [hpath] at hformed
      · cases List.mem_singleton.mp hnext
        have hany : s.host.mapped.any (·.1 = m.1) = true := List.any_eq_true.mpr ⟨m, hm, decide_eq_true rfl⟩
        simp [Host.present, hany]
  · exact h

theorem Inv.attach (h : Inv s) (req : Request) (outcome : Outcome) (ho : Orderly s (.attach req outcome) = true) :
    Inv (s.step (.attach req outcome)) := by
  simp only [State.step]
  split_ifs with hcall
  · have hvalid : req.Valid := h.calls _ hcall
    have hfailed : Inv { s with calls := s.calls.erase (.attach req) } := h.endCall fun path _ hd => by cases hd
    cases outcome with
    | failed => exact hfailed
    | attached device =>
      simp only [State.attach]
      split_ifs with hoffer
      · exact hfailed
      · refine h.attached_call hvalid fun hceph => ?_
        have hoffers : s.host.offers device = true := by
          cases hd : s.host.offers device with
          | true => rfl
          | false => exact absurd ⟨hceph, hd⟩ hoffer
        simp only [Host.offers, Bool.and_eq_true, decide_eq_true_eq] at hoffers
        exact ⟨hoffers.1.2, hoffers.1.1⟩
    | unprinted device =>
      have hceph : req.storageClass ≠ .ceph := by simpa [Orderly] using ho
      simp only [State.attach, hceph, false_and, if_false]
      exact hfailed
  · exact h

theorem names_cons {l : SnapshotLease} {leases : List SnapshotLease} :
    names (l :: leases) path = true ↔ l.devicePath = path ∨ names leases path = true := by
  rw [names, List.any_cons, Bool.or_eq_true, decide_eq_true_eq]
  rfl

theorem Inv.enter (h : Inv s) (hcall : .register req lease.devicePath ∈ s.calls)
    (hfresh : ∀ l ∈ s.leases, l.leaseId ≠ lease.leaseId)
    (hformed : Formed lease.storageClass lease.backendHandle lease.snapshotName lease.devicePath) :
    Inv { s with leases := lease :: s.leases, calls := s.calls.erase (.register req lease.devicePath) } where
  attached l hl hnow := by
    rcases List.mem_cons.mp hl with rfl | hl
    · exact h.registering req l.devicePath hcall
    · exact h.attached l hl hnow
  registering req' path hreg := h.registering req' path (List.mem_of_mem_erase hreg)
  held path hpath := by
    refine (h.held path hpath).mono (fun hnamed => .inl (names_cons.mpr (.inr hnamed))) fun call hmem hholds => ?_
    by_cases hp : lease.devicePath = path
    · exact .inl (names_cons.mpr (.inl hp))
    · exact .inr ⟨call, mem_erase_of_holds hmem hholds (decide_eq_false hp), hholds⟩
  leases := List.forall_mem_cons.mpr ⟨hformed, h.leases⟩
  calls call hmem := h.calls call (List.mem_of_mem_erase hmem)
  devices := h.devices
  ids l hl l' hl' hid := by
    rcases List.mem_cons.mp hl with rfl | hold
    · rcases List.mem_cons.mp hl' with rfl | hold'
      · rfl
      · exact absurd hid.symm (hfresh l' hold')
    · rcases List.mem_cons.mp hl' with rfl | hold'
      · exact absurd hid (hfresh l hold)
      · exact h.ids l hold l' hold' hid

theorem Inv.register (h : Inv s) (req : Request) (devicePath leaseId : String)
    (ho : Orderly s (.register req devicePath leaseId) = true) : Inv (s.step (.register req devicePath leaseId)) := by
  simp only [State.step]
  split_ifs with hcall
  · obtain ⟨hperiod, hnew⟩ := Bool.and_eq_true_iff.mp ho
    unfold State.register
    cases hduration : leaseDuration req.leaseSeconds with
    | error e =>
      have hnamed : names s.leases devicePath = true := by simpa [hduration, Except.isOk, Except.toBool] using hperiod
      refine h.endCall fun path _ hd => ?_
      obtain rfl : devicePath = path := of_decide_eq_true hd
      exact .inl hnamed
    | ok duration =>
      have hfresh : ∀ l ∈ s.leases, l.leaseId ≠ leaseId := by
        intro l hl
        simp only [State.find, Option.isNone_iff_eq_none, List.find?_eq_none] at hnew
        simpa using hnew l hl
      have hsame : s.leases.filter (·.leaseId ≠ leaseId) = s.leases :=
        List.filter_eq_self.mpr fun l hl => decide_eq_true (hfresh l hl)
      dsimp only
      rw [hsame]
      have hformed : Formed req.storageClass req.backendHandle req.snap devicePath := h.calls _ hcall
      exact h.enter hcall hfresh hformed
  · exact h

theorem find_spec {leaseId : String} (h : s.find leaseId = some lease) :
    lease ∈ s.leases ∧ lease.leaseId = leaseId := by
  have hid := List.find?_some h
  exact ⟨List.mem_of_find?_eq_some h, of_decide_eq_true hid⟩

theorem mem_of_mem_without {leaseId : String} {l : SnapshotLease} (h : l ∈ s.without leaseId) : l ∈ s.leases :=
  (List.mem_filter.mp h).1

theorem Inv.held_without (h : Inv s) {leaseId : String} (hfind : s.find leaseId = some lease)
    (hlease : Held (s.without leaseId) calls lease.devicePath) (hnamed : names s.leases path = true) :
    Held (s.without leaseId) calls path := by
  obtain ⟨hmem, hid⟩ := find_spec hfind
  by_cases hpath : lease.devicePath = path
  · exact hpath ▸ hlease
  · obtain ⟨l, hl, hlpath⟩ := List.any_eq_true.mp hnamed
    have hne : l.leaseId ≠ leaseId := by
      intro hsame
      have heq : l = lease := h.ids l hl lease hmem (hsame.trans hid.symm)
      exact hpath (heq ▸ of_decide_eq_true hlpath)
    exact .inl (List.any_eq_true.mpr ⟨l, List.mem_filter.mpr ⟨hl, decide_eq_true hne⟩, hlpath⟩)

theorem Inv.unexpose (h : Inv s) (leaseId : String) (ho : Orderly s (.unexpose leaseId) = true) :
    Inv (s.step (.unexpose leaseId)) := by
  simp only [State.step]
  cases hfind : s.find leaseId with
  | none => exact h
  | some lease =>
    have hmem := (find_spec hfind).1
    have hlease : Held (s.without leaseId) (.release lease :: s.calls) lease.devicePath := by
      by_cases hzfs : lease.storageClass = .zfs
      · exact .inl (by simpa [Orderly, hfind, hzfs] using ho)
      · exact .inr ⟨_, List.mem_cons_self, by simp [Call.holds, hzfs]⟩
    refine h.drop (fun l => mem_of_mem_without) (fun _ hcall => List.mem_cons_of_mem _ hcall) (fun call hcall => ?_)
      (fun req path hcall => ?_) fun path hnamed => h.held_without hfind hlease hnamed
    · rcases List.mem_cons.mp hcall with rfl | hold
      · exact h.leases lease hmem
      · exact h.calls call hold
    · rcases List.mem_cons.mp hcall with hnew | hold
      · cases hnew
      · exact hold

theorem Inv.lookup (h : Inv s) (leaseId : String) (ho : Orderly s (.lookup leaseId) = true) :
    Inv (s.step (.lookup leaseId)) := by
  simp only [State.step]
  cases hfind : s.find leaseId with
  | none => exact h
  | some lease =>
    dsimp only
    split_ifs with hexpired
    · have hnamed : names (s.without leaseId) lease.devicePath = true := by
        have hnow : ¬ s.now < lease.expiresAt := by omega
        simpa [Orderly, hfind, hnow] using ho
      exact h.drop (fun l => mem_of_mem_without) (fun _ hcall => hcall) h.calls (fun _ _ hcall => hcall)
        fun path hpath => h.held_without hfind (.inl hnamed) hpath
    · exact h

theorem Inv.expireDue (h : Inv s) (ho : Orderly s .expireDue = true) : Inv (s.step .expireDue) := by
  refine h.drop (fun l hl => (List.mem_filter.mp hl).1) (fun _ hcall => hcall) h.calls (fun _ _ hcall => hcall)
    fun path hpath => .inl ?_
  obtain ⟨l, hl, hlpath⟩ := List.any_eq_true.mp hpath
  have hnamed := List.all_eq_true.mp ho l hl
  rwa [of_decide_eq_true hlpath] at hnamed

theorem Inv.tick (h : Inv s) (seconds : Nat) : Inv (s.step (.tick seconds)) where
  attached l hl hnow := h.attached l hl ((Nat.le_add_right _ _).trans_lt hnow)
  registering := h.registering
  held := h.held
  leases := h.leases
  calls := h.calls
  devices := h.devices
  ids := h.ids

theorem mapped_run_of_frees {host : Host} {command : Command} {device : String} (hfree : command.frees = some device)
    {m : String × String} (hm : m ∈ (host.run command).mapped) : m ∈ host.mapped := by
  cases command with
  | unmap d => exact (List.mem_filter.mp hm).1
  | deactivate lv => exact hm
  | _ => cases hfree

theorem Inv.detach (h : Inv s) {command : Command} (hfree : command.frees = some lease.devicePath)
    (hcalls : ∀ call ∈ s.calls, call.registers lease.devicePath = false)
    (hleases : ∀ l ∈ s.leases, l.devicePath = lease.devicePath → l.expiresAt ≤ s.now) :
    Inv { s with
      host := s.host.run command
      calls := s.calls.erase (.release lease)
      ours := s.ours.filter fun path => !([command] : List Command).any (·.frees = some path) } where
  attached l hl hnow := by
    have hne : l.devicePath ≠ lease.devicePath := fun hsame => absurd (hleases l hl hsame) (Nat.not_le.mpr hnow)
    exact present_of_frees hfree hne (h.attached l hl hnow)
  registering req path hcall := by
    have hold := List.mem_of_mem_erase hcall
    have hne : path ≠ lease.devicePath := of_decide_eq_false (hcalls _ hold)
    exact present_of_frees hfree hne (h.registering req path hold)
  held path hpath := by
    obtain ⟨hours, hkept⟩ := List.mem_filter.mp hpath
    have hne : lease.devicePath ≠ path := by
      rintro rfl
      simp [hfree] at hkept
    refine (h.held path hours).mono .inl fun call hcall hholds => ?_
    have hdone : (Call.release lease).holds path = false := by simp [Call.holds, hne]
    exact .inr ⟨call, mem_erase_of_holds hcall hholds hdone, hholds⟩
  leases := h.leases
  calls call hcall := h.calls call (List.mem_of_mem_erase hcall)
  devices m hm := h.devices m (mapped_run_of_frees hfree hm)
  ids := h.ids

theorem Inv.release (h : Inv s) (lease : SnapshotLease) (succeeds : Bool)
    (ho : Orderly s (.release lease succeeds) = true) : Inv (s.step (.release lease succeeds)) := by
  simp only [State.step]
  split_ifs with hcall
  · obtain ⟨plan, hplan, hzfs, hother⟩ : Formed lease.storageClass lease.backendHandle lease.snapshotName
      lease.devicePath := h.calls _ hcall
    unfold State.release
    rw [hplan]
    by_cases hclass : lease.storageClass = .zfs
    · have hended : Inv { s with calls := s.calls.erase (.release lease) } :=
        h.endCall fun path _ hd => (by simp [Call.holds, hclass] at hd)
      have hours : (s.ours.filter fun path => !([] : List Command).any (·.frees = some path)) = s.ours :=
        List.filter_eq_self.mpr fun _ _ => rfl
      rw [hzfs hclass]
      cases succeeds with
      | false => exact hended
      | true =>
        dsimp only
        rw [if_pos rfl, hours]
        exact hended
    · obtain ⟨command, rfl, hfree⟩ := hother hclass
      simp only [Orderly, decide_eq_false hclass, Bool.false_or, Bool.and_eq_true, Bool.not_eq_true',
        List.any_eq_false] at ho
      obtain ⟨⟨hsucceeds, hcalls⟩, hleases⟩ := ho
      rw [hsucceeds]
      refine h.detach hfree (fun call hmem => Bool.eq_false_iff.mpr (hcalls call hmem)) fun l hl hsame => ?_
      have hlate := hleases l hl
      simp only [hsame, decide_true, true_and, decide_eq_true_eq, Nat.not_lt] at hlate
      exact hlate
  · exact h

theorem Inv.step (h : Inv s) (a : Act) (ho : Orderly s a = true) : Inv (s.step a) := by
  cases a with
  | expose storageClass backendHandle snapshotName leaseSeconds => exact h.expose _ _ _ _
  | look req listed => exact h.look req listed
  | attach req outcome => exact h.attach req outcome ho
  | register req devicePath leaseId => exact h.register req devicePath leaseId ho
  | unexpose leaseId => exact h.unexpose leaseId ho
  | release lease succeeds => exact h.release lease succeeds ho
  | lookup leaseId => exact h.lookup leaseId ho
  | expireDue => exact h.expireDue ho
  | tick seconds => exact h.tick seconds

end Preserved

def State.start (host : Host) (now : Nat) : State := ⟨host, [], [], now, []⟩

/-- In every orderly interleaving, a leased device stays attached and no other one of ours does. -/
theorem kept_along (host : Host) (hdevices : ∀ m ∈ host.mapped, IsDevice m.1) (now : Nat) (acts : List Act)
    (h : Each State.step (fun s a => Orderly s a = true) (State.start host now) acts) :
    Along State.step Kept (State.start host now) acts := by
  have hstart : Inv (State.start host now) :=
    ⟨fun _ hl => absurd hl List.not_mem_nil, fun _ _ hc => absurd hc List.not_mem_nil,
      fun _ hp => absurd hp List.not_mem_nil, fun _ hl => absurd hl List.not_mem_nil,
      fun _ hc => absurd hc List.not_mem_nil, hdevices, fun _ hl => absurd hl List.not_mem_nil⟩
  exact (along_of_each hstart (fun s a hs ho => hs.step a ho) h).mono fun _ hs => ⟨hs.attached, hs.held⟩

/-! ### Two readers of one snapshot -/

def bare : Host := ⟨[], [], []⟩

def nightly : Request := ⟨.ceph, "rbd/vm1", "rbd", "vm1", "nightly", 0⟩

def firstLease : SnapshotLease := ⟨"lease-1", .ceph, "rbd/vm1", "nightly", "/dev/nbd0", 900⟩

def oneReader : List Act :=
  [.expose "ceph" "rbd/vm1" "nightly" 0, .look nightly true, .attach nightly (.attached "/dev/nbd0"),
    .register nightly "/dev/nbd0" "lease-1", .lookup "lease-1", .unexpose "lease-1", .release firstLease true]

theorem one_reader_kept : Along State.step Kept (State.start bare 0) oneReader :=
  kept_along bare (fun _ hm => absurd hm List.not_mem_nil) 0 oneReader (by decide)

def twoReaders : List Act :=
  [.expose "ceph" "rbd/vm1" "nightly" 0, .look nightly true, .attach nightly (.attached "/dev/nbd0"),
    .register nightly "/dev/nbd0" "lease-1", .expose "ceph" "rbd/vm1" "nightly" 0, .look nightly true,
    .register nightly "/dev/nbd0" "lease-2", .unexpose "lease-1", .release firstLease true]

theorem shared_device_unmapped : ¬ Along State.step Kept (State.start bare 0) twoReaders := by
  intro h
  have hlease : (⟨"lease-2", .ceph, "rbd/vm1", "nightly", "/dev/nbd0", 900⟩ : SnapshotLease) ∈
      (run State.step (State.start bare 0) twoReaders).leases := by decide
  have hnow : (run State.step (State.start bare 0) twoReaders).now < 900 := by decide
  have hpresent := h.last.attached _ hlease hnow
  revert hpresent
  decide

end Kcore.Export
