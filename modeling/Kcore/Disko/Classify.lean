import Kcore.Json

/-!
# The disk layout classifier

Before a node applies a disk layout it lists its block devices with `lsblk` and refuses the layout if a device that it
names, or one below such a device, is in use. `parse` flattens the tree that `lsblk` prints into devices that know the
path of their parent, and `classify_disk_layout` looks for a device in use whose path, or the path of one of its
ancestors, is among the targets.
-/

namespace Kcore.Disko

structure BlockDevice where
  path : String
  kind : String
  fstype : Option String
  mountpoints : List String
  parentPath : Option String

/-! ### The output of `lsblk` -/

mutual

def walk : Value → Option String → List BlockDevice
  | .object fields, parentPath =>
    let node := Value.object fields
    let path := (node.str "path").getD ""
    if path = "" then []
    else
      { path := path
        kind := (node.str "type").getD ""
        fstype := (node.str "fstype").filter (· ≠ "")
        mountpoints := (node.strings "mountpoints").filter (· ≠ "")
        parentPath := parentPath.or ((node.str "pkname").filter (· ≠ "")) } :: walkFields fields path
  | _, _ => []

def walkFields : List (String × Value) → String → List BlockDevice
  | [], _ => []
  | (key, v) :: rest, path => if key = "children" then walkArray v (some path) else walkFields rest path

def walkArray : Value → Option String → List BlockDevice
  | .array items, parentPath => walkItems items parentPath
  | _, _ => []

def walkItems : List Value → Option String → List BlockDevice
  | [], _ => []
  | v :: rest, parentPath => walk v parentPath ++ walkItems rest parentPath

end

/-- `lsblk::parse`, on the value of the text. -/
def parse (root : Value) : Except String (List BlockDevice) :=
  match root.list "blockdevices" with
  | none => .error "lsblk json missing blockdevices array"
  | some devices => .ok (walkItems devices none)

/-! ### The verdict -/

inductive Verdict where
  | safe
  | dangerous (code detail : String)

namespace Refusal

def mountedKcoreVolume : String := "target_device_has_active_kcore_volume"
def mountedSystemPartition : String := "target_device_has_active_system_mount"
def activeLvmPv : String := "target_device_is_active_lvm_pv"
def activeZpoolMember : String := "target_device_is_active_zpool_member"
def noTargetDevices : String := "no_target_devices"

end Refusal

def isSystemMount (mp : String) : Bool := mp ∈ ["/", "/boot", "/nix", "/nix/store", "/boot/efi"]

def classifyMount (dev : BlockDevice) (kcoreVolumeRoots : List String) (mp : String) : Option Verdict :=
  if mp = "" then none
  else if kcoreVolumeRoots.any (startsWith mp ·) then
    some (.dangerous Refusal.mountedKcoreVolume (dev.path ++ " currently backs kcore volume mount " ++ mp))
  else if isSystemMount mp then
    some (.dangerous Refusal.mountedSystemPartition (dev.path ++ " currently hosts system mount " ++ mp))
  else none

def classifyFstype (dev : BlockDevice) : Option Verdict :=
  if dev.fstype = some "LVM2_member" then
    some (.dangerous Refusal.activeLvmPv (dev.path ++ " is an active LVM physical volume"))
  else if dev.fstype = some "zfs_member" then
    some (.dangerous Refusal.activeZpoolMember (dev.path ++ " is a member of an active ZFS pool"))
  else none

def classifyDevice (dev : BlockDevice) (kcoreVolumeRoots : List String) : Option Verdict :=
  (dev.mountpoints.findSome? (classifyMount dev kcoreVolumeRoots)).or (classifyFstype dev)

def parentOf (devices : List BlockDevice) (path : String) : Option String :=
  (devices.find? (·.path = path)).bind (·.parentPath)

def climb (devices : List BlockDevice) (targets : List String) : Nat → Option String → Bool
  | _, none => false
  | 0, some _ => false
  | n + 1, some p => p ∈ targets || climb devices targets n (parentOf devices p)

/-- The loop looks at nine ancestors: it ends at depth nine. -/
def isWithinTargets (devices : List BlockDevice) (targets : List String) (dev : BlockDevice) : Bool :=
  dev.path ∈ targets || climb devices targets 9 dev.parentPath

def classifyDiskLayout (targetDevices : List String) (devices : List BlockDevice) (kcoreVolumeRoots : List String) :
    Verdict :=
  if targetDevices = [] then
    .dangerous Refusal.noTargetDevices "proposed layout did not declare any /dev/* target devices"
  else
    (devices.findSome? fun dev =>
      if isWithinTargets devices targetDevices dev then classifyDevice dev kcoreVolumeRoots else none).getD .safe

def kcoreVolumeRoots : List String := ["/var/lib/kcore/volumes", "/var/lib/kcore/images"]

end Kcore.Disko
