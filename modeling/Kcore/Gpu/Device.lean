import Kcore.Text

/-!
# Devices of a node

What the PCI scan of a node reports: whole devices, and the slices of the cards that are split between VMs. A stored
binding is the name of a device, for a slice followed by `=` and its profile.
-/

namespace Kcore.Gpu

inductive VgpuVendor where
  | nvidia
  | intel
  | amd
  deriving DecidableEq

namespace VgpuVendor

def asStr : VgpuVendor → String
  | nvidia => "nvidia"
  | intel => "intel"
  | amd => "amd"

def family : VgpuVendor → String
  | nvidia => "nvidia"
  | intel => "intel"
  | amd => "radeon"

def hostDriver : VgpuVendor → String
  | nvidia => "nvidia"
  | intel => "xe"
  | amd => "gim"

def splitsEvenly (v : VgpuVendor) : Bool := v ≠ nvidia

def ofPci (vendor : Nat) : Option VgpuVendor :=
  if vendor = 0x10de then some nvidia
  else if vendor = 0x8086 then some intel
  else if vendor = 0x1002 then some amd
  else none

def ofProfile (profile : String) : VgpuVendor :=
  (([nvidia, intel, amd].filter splitsEvenly).find? fun vendor =>
    startsWith (toAsciiLowercase profile) (vendor.family ++ "-")).getD nvidia

end VgpuVendor

inductive DeviceKind where
  | gpu
  | nic
  | nvme
  | raw
  | vgpu
  deriving DecidableEq

inductive DeviceRole where
  | compute
  | platform
  | passthrough
  | vgpuHost
  | slice
  deriving DecidableEq

/-- One device of the inventory. `parent` is the card of a slice; `profile` is the type a slice runs now and
`profiles` are the types it can take. -/
structure GpuDevice where
  name : String
  family : String
  address : String
  functions : List String
  iommuGroup : Int
  assignable : Bool
  blockedReason : String
  kind : DeviceKind
  role : DeviceRole
  driver : String
  parent : String
  profile : String
  profiles : List String
  deriving DecidableEq

inductive VgpuSelector where
  /-- Any card with a free slice of the profile. -/
  | profile (profile : String)
  /-- A free slice of the profile on one card. -/
  | card (card profile : String)
  /-- One slice. -/
  | slice (name profile : String)

def VgpuSelector.wanted : VgpuSelector → String
  | .profile p => p
  | .card _ p => p
  | .slice _ p => p

def bindingDeviceName (stored : String) : String :=
  match splitOnce stored '=' with
  | some (name, _) => name
  | none => stored

def bindingProfile (stored : String) : Option String :=
  ((splitOnce stored '=').map (·.2)).filter (· ≠ "")

end Kcore.Gpu
