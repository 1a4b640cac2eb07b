import Kcore.Text
import Mathlib.Data.Finset.Basic
import Mathlib.Data.Finset.Filter

/-!
# Which updates are switched to live

Whether an update can be activated without a reboot is decided when it is prepared, by comparing the running
system with what the staged pins build. It is activated later, from a tree that is refreshed with what has changed
on the host since, and the decision is not made again. So a VM that was added or edited in between can be restarted
by the switch.
-/

namespace Kcore.Update

/-! ### Host trees and closures -/

inductive CandidateFile where
  | flakeNix
  | flakeLock
  | legacyConfiguration

abbrev Files := CandidateFile → Option String

/-- An entry of `etc/systemd/system`: a file by the path it resolves to, or a directory by those of its children. -/
inductive Entry where
  | file (resolved : String)
  | directory (children : List (String × String))

structure Closure where
  path : String
  kernel : String
  units : List (String × Entry)

def fingerprint (e : String × Entry) : List (String × String) :=
  match e.2 with
  | .file resolved => [(e.1, resolved)]
  | .directory children => children.map fun c => (e.1 ++ "/" ++ c.1, c.2)

def isVmUnit (e : String × Entry) : Bool := textContains e.1 "kcore-vm-"

def vmUnitFingerprints (c : Closure) : Finset (String × String) :=
  ((c.units.filter isVmUnit).flatMap fingerprint).toFinset

def kernelOf (current : Option Closure) : String := (current.map Closure.kernel).getD ""

def vmUnitsDiffer (current : Option Closure) (target : Closure) : Bool :=
  match current with
  | none => true
  | some c => vmUnitFingerprints c ≠ vmUnitFingerprints target

inductive PlannedActivation where
  | switch
  | boot
  deriving DecidableEq

def classifyActivation (vmUnitsChanged kernelChanged : Bool) : PlannedActivation :=
  if vmUnitsChanged || kernelChanged then .boot else .switch

def planFor (firstFlake : Bool) (current : Option Closure) (toplevel : Closure) : PlannedActivation :=
  let vmChanged := firstFlake || vmUnitsDiffer current toplevel
  let kernelChanged := kernelOf current ≠ kernelOf (some toplevel)
  if firstFlake then .boot else classifyActivation vmChanged kernelChanged

/-- No guest has to be restarted to get from one system to the other: the kernel is the same, and so are the unit
files of the VMs. -/
def KeepsGuests (current target : Closure) : Prop :=
  kernelOf (some current) = kernelOf (some target) ∧ vmUnitFingerprints current = vmUnitFingerprints target

theorem keepsGuests_of_planFor {firstFlake : Bool} {current toplevel : Closure}
    (h : planFor firstFlake (some current) toplevel = .switch) : KeepsGuests current toplevel := by
  unfold planFor classifyActivation at h
  cases firstFlake with
  | true => simp at h
  | false => simpa [vmUnitsDiffer, KeepsGuests, and_comm] using h

/-! ### What Nix builds -/

/-- What the host flake evaluates to, for the pins in the candidate files. The unit files of a VM come from its
definition, and their names tell the VM. -/
structure Nix (Vm Other : Type) where
  name : Vm → String
  kernel : Files → Other → String
  path : Files → Other → List Vm → String
  hostUnits : Files → Other → List (String × Entry)
  vmUnits : Files → Other → Vm → List (String × Entry)
  owner : String → String
  hostUnits_named : ∀ files other, ∀ e ∈ hostUnits files other, isVmUnit e = false
  vmUnits_named : ∀ files other v, ∀ e ∈ vmUnits files other v, isVmUnit e = true
  vmUnits_owner : ∀ files other v, ∀ e ∈ vmUnits files other v, ∀ x ∈ fingerprint e, owner x.1 = name v

variable {Vm Other : Type}

/-- What is in a host tree apart from the candidate files: the VMs, under different names, and the rest. -/
structure Config (nix : Nix Vm Other) where
  vms : List Vm
  nodup : (vms.map nix.name).Nodup
  other : Other

structure Tree (nix : Nix Vm Other) where
  files : Files
  config : Config nix

def Nix.closure (nix : Nix Vm Other) (t : Tree nix) : Closure where
  path := nix.path t.files t.config.other t.config.vms
  kernel := nix.kernel t.files t.config.other
  units := nix.hostUnits t.files t.config.other ++ t.config.vms.flatMap (nix.vmUnits t.files t.config.other)

def Nix.prints (nix : Nix Vm Other) (files : Files) (other : Other) (v : Vm) : Finset (String × String) :=
  ((nix.vmUnits files other v).flatMap fingerprint).toFinset

/-! ### Preparing and activating -/

inductive ManifestKind where
  | generation
  | bootstrap
  deriving DecidableEq

structure StagedManifest where
  kind : ManifestKind
  activation : PlannedActivation
  rebootRequired : Bool
  activated : Bool
  toplevel : String

def validateFlakeRev (rev : String) : Except String Unit :=
  if (trim rev).length ≠ 40 ∨
      ¬ (trim rev).toList.all (fun c => c.isDigit || (c.toLower.toNat ≥ 97 && c.toLower.toNat ≤ 102)) then
    .error "flake_rev must be a 40-character git commit"
  else .ok ()

/-- `PrepareRequest`. `stage` rewrites the candidate files, with the lock that the build leaves; `checkLock` compares
it with the commit of the tag; `builds` tells of a build that fails. -/
structure PrepareRequest (nix : Nix Vm Other) where
  updateKind : String
  flakeRev : String
  enoughSpace : Bool
  stage : Files → Except String Files
  checkLock : Files → Except String Unit
  builds : Tree nix → Except String Unit

/-- `prepare_generation`: the manifest and the staged tree. -/
def prepareGeneration (nix : Nix Vm Other) (req : PrepareRequest nix) (live : Tree nix) (current : Option Closure) :
    Except String (StagedManifest × Tree nix) := do
  validateFlakeRev req.flakeRev
  if req.updateKind = "bootstrap" then throw "bootstrap is staged with stage_versioned_bins, not a generation"
  if !req.enoughSpace then throw "/nix/store has not enough bytes free"
  let files ← req.stage live.files
  let staging : Tree nix := ⟨files, live.config⟩
  req.builds staging
  req.checkLock files
  let toplevel := nix.closure staging
  let plan := planFor (live.files .flakeNix).isNone current toplevel
  pure (⟨.generation, plan, plan = .boot, false, toplevel.path⟩, staging)

def restageHostTree (nix : Nix Vm Other) (live staging : Tree nix) : Tree nix := ⟨staging.files, live.config⟩

/-- What `activate_staged` goes on to do. -/
inductive Activation where
  | nothing
  | boot (toplevel : Closure)
  | liveSwitch (toplevel : Closure)

/-- `activate_staged`, up to where it changes the system. A mode other than `boot` and `switch` is `none`. -/
def activateStaged (nix : Nix Vm Other) (manifest : StagedManifest) (mode : Option PlannedActivation)
    (staging live : Tree nix) (builds : Tree nix → Except String Unit) : Except String Activation := do
  if manifest.kind = .bootstrap then return .nothing
  if (staging.files .flakeNix).isNone then throw "this update has no staged host flake; prepare it again"
  let staging := restageHostTree nix live staging
  builds staging
  match mode.getD manifest.activation with
  | .boot => pure (.boot (nix.closure staging))
  | .switch => pure (.liveSwitch (nix.closure staging))

/-! ### The units of the VMs -/

section Units

variable {nix : Nix Vm Other}

variable {files : Files} {t : Tree nix}

theorem owner_of_mem_prints {other : Other} {v : Vm} {x : String × String} (hx : x ∈ nix.prints files other v) :
    nix.owner x.1 = nix.name v := by
  simp only [Nix.prints, List.mem_toFinset, List.mem_flatMap] at hx
  obtain ⟨e, he, hx⟩ := hx
  exact nix.vmUnits_owner files other v e he x hx

theorem mem_vmUnitFingerprints {x : String × String} :
    x ∈ vmUnitFingerprints (nix.closure t) ↔ ∃ v ∈ t.config.vms, x ∈ nix.prints t.files t.config.other v := by
  simp only [vmUnitFingerprints, Nix.closure, Nix.prints, List.mem_toFinset, List.mem_flatMap, List.mem_filter,
    List.mem_append]
  constructor
  · rintro ⟨e, ⟨he | ⟨v, hv, he⟩, hnamed⟩, hx⟩
    · have := nix.hostUnits_named _ _ e he
      simp [this] at hnamed
    · exact ⟨v, hv, e, he, hx⟩
  · rintro ⟨v, hv, e, he, hx⟩
    exact ⟨e, ⟨.inr ⟨v, hv, he⟩, nix.vmUnits_named _ _ v e he⟩, hx⟩

theorem vmUnitFingerprints_eq_iff :
    vmUnitFingerprints (nix.closure t) = vmUnitFingerprints (nix.closure ⟨files, t.config⟩) ↔
      ∀ v ∈ t.config.vms, nix.prints t.files t.config.other v = nix.prints files t.config.other v := by
  have hsame : ∀ v ∈ t.config.vms, ∀ w ∈ t.config.vms, nix.name v = nix.name w → v = w :=
    fun v hv w hw h => List.inj_on_of_nodup_map t.config.nodup hv hw h
  constructor
  · intro h v hv
    ext x
    have hx : (∃ w ∈ t.config.vms, x ∈ nix.prints t.files t.config.other w) ↔
        ∃ w ∈ t.config.vms, x ∈ nix.prints files t.config.other w := by
      rw [← mem_vmUnitFingerprints, h, mem_vmUnitFingerprints]
    constructor
    · intro hmem
      obtain ⟨w, hw, hmem'⟩ := hx.1 ⟨v, hv, hmem⟩
      have hname := (owner_of_mem_prints hmem).symm.trans (owner_of_mem_prints hmem')
      rwa [hsame v hv w hw hname]
    · intro hmem
      obtain ⟨w, hw, hmem'⟩ := hx.2 ⟨v, hv, hmem⟩
      have hname := (owner_of_mem_prints hmem).symm.trans (owner_of_mem_prints hmem')
      rwa [hsame v hv w hw hname]
  · intro h
    ext x
    rw [mem_vmUnitFingerprints, mem_vmUnitFingerprints]
    constructor
    · rintro ⟨v, hv, hx⟩
      exact ⟨v, hv, h v hv ▸ hx⟩
    · rintro ⟨v, hv, hx⟩
      exact ⟨v, hv, (h v hv).symm ▸ hx⟩

theorem keepsGuests_iff :
    KeepsGuests (nix.closure t) (nix.closure ⟨files, t.config⟩) ↔
      nix.kernel t.files t.config.other = nix.kernel files t.config.other ∧
        ∀ v ∈ t.config.vms, nix.prints t.files t.config.other v = nix.prints files t.config.other v := by
  unfold KeepsGuests
  rw [vmUnitFingerprints_eq_iff]
  rfl

end Units

/-! ### From the plan to the switch -/

theorem prepareGeneration_switch {nix : Nix Vm Other} {req : PrepareRequest nix} {live staging : Tree nix}
    {current : Closure} {manifest : StagedManifest}
    (h : prepareGeneration nix req live (some current) = .ok (manifest, staging))
    (hplan : manifest.activation = .switch) :
    staging.config = live.config ∧ KeepsGuests current (nix.closure staging) := by
  unfold prepareGeneration at h
  simp only [bind, Except.bind, throw, throwThe, MonadExceptOf.throw, pure, Except.pure] at h
  repeat' split at h
  all_goals cases h
  exact ⟨rfl, keepsGuests_of_planFor hplan⟩

theorem activateStaged_liveSwitch {nix : Nix Vm Other} {manifest : StagedManifest} {staging live : Tree nix}
    {builds : Tree nix → Except String Unit} {target : Closure}
    (h : activateStaged nix manifest none staging live builds = .ok (.liveSwitch target)) :
    manifest.activation = .switch ∧ target = nix.closure ⟨staging.files, live.config⟩ := by
  unfold activateStaged at h
  simp only [bind, Except.bind, throw, throwThe, MonadExceptOf.throw, pure, Except.pure, Option.getD_none] at h
  repeat' split at h
  all_goals cases h
  exact ⟨by assumption, rfl⟩

def OnlyVmsChanged {nix : Nix Vm Other} (before after : Tree nix) : Prop :=
  after.files = before.files ∧ after.config.other = before.config.other

/-- What has changed on the host since the update was prepared gives the same kernel and the same units under the
pins of the host and under the staged ones: the VMs that are new or edited, and everything when more than the VMs has
changed. -/
def ChangesAlike {nix : Nix Vm Other} (staged : Files) (before after : Tree nix) : Prop :=
  (OnlyVmsChanged before after ∨ nix.kernel after.files after.config.other = nix.kernel staged after.config.other) ∧
  ∀ v ∈ after.config.vms, (OnlyVmsChanged before after ∧ v ∈ before.config.vms) ∨
    nix.prints after.files after.config.other v = nix.prints staged after.config.other v

/-- A switch that follows the plan keeps the guests exactly when what has changed since the plan was made is the same
under the old and the new pins. -/
theorem live_switch_keeps_guests_iff {nix : Nix Vm Other} {req : PrepareRequest nix} {before after staging : Tree nix}
    {manifest : StagedManifest} {builds : Tree nix → Except String Unit} {target : Closure}
    (hprepare : prepareGeneration nix req before (some (nix.closure before)) = .ok (manifest, staging))
    (hactivate : activateStaged nix manifest none staging after builds = .ok (.liveSwitch target)) :
    KeepsGuests (nix.closure after) target ↔ ChangesAlike staging.files before after := by
  obtain ⟨hplan, rfl⟩ := activateStaged_liveSwitch hactivate
  obtain ⟨hconfig, hkept⟩ := prepareGeneration_switch hprepare hplan
  have hstaging : staging = ⟨staging.files, before.config⟩ := by rw [← hconfig]
  rw [hstaging, keepsGuests_iff] at hkept
  rw [keepsGuests_iff]
  constructor
  · rintro ⟨hkernel, hprints⟩
    exact ⟨.inr hkernel, fun v hv => .inr (hprints v hv)⟩
  · rintro ⟨hkernel, hprints⟩
    constructor
    · rcases hkernel with ⟨hfiles, hother⟩ | hkernel
      · rw [hfiles, hother]
        exact hkept.1
      · exact hkernel
    · intro v hv
      rcases hprints v hv with ⟨⟨hfiles, hother⟩, hold⟩ | heq
      · rw [hfiles, hother]
        exact hkept.2 v hold
      · exact heq

/-! ### A host with two VMs -/

/-- The disk of one VM is an image; the other also gets a seed, which is made with a package of the pinned nixpkgs. -/
inductive Guest where
  | imageOnly
  | seeded

def Guest.name : Guest → String
  | .imageOnly => "db"
  | .seeded => "web"

def Guest.unit : Guest → String
  | .imageOnly => "kcore-vm-db.service"
  | .seeded => "kcore-vm-web.service"

def Guest.unitPath (commit : String) : Guest → String
  | .imageOnly => "/nix/store/kcore-vm-db.service"
  | .seeded => "/nix/store/" ++ commit ++ "-kcore-vm-web.service"

def guestNix : Nix Guest Unit where
  name := Guest.name
  kernel _ _ := "/nix/store/linux"
  path files _ _ := "/nix/store/" ++ (files .flakeLock).getD "" ++ "-nixos"
  hostUnits _ _ := [("sshd.service", .file "/nix/store/sshd.service")]
  vmUnits files _ g := [(g.unit, .file (g.unitPath ((files .flakeLock).getD "")))]
  owner key := if key = Guest.imageOnly.unit then Guest.imageOnly.name else Guest.seeded.name
  hostUnits_named _ _ e he := by
    rw [List.mem_singleton] at he
    subst he
    decide
  vmUnits_named _ _ v e he := by
    have hunit : textContains v.unit "kcore-vm-" = true := by cases v <;> decide
    rw [List.mem_singleton] at he
    subst he
    exact hunit
  vmUnits_owner _ _ v e he x hx := by
    have howner : (if v.unit = Guest.imageOnly.unit then Guest.imageOnly.name else Guest.seeded.name) = v.name := by
      cases v <;> decide
    rw [List.mem_singleton] at he
    subst he
    rw [fingerprint, List.mem_singleton] at hx
    subst hx
    exact howner

def lockedTo (commit : String) : Files
  | .flakeNix => some "inputs.kcore"
  | .flakeLock => some commit
  | .legacyConfiguration => none

def hostWith (vms : List Guest) (h : (vms.map guestNix.name).Nodup) : Tree guestNix := ⟨lockedTo "old", vms, h, ()⟩

def emptyHost : Tree guestNix := hostWith [] (by decide)

def updateToNew : PrepareRequest guestNix where
  updateKind := "kcore"
  flakeRev := "0123456789abcdef0123456789abcdef01234567"
  enoughSpace := true
  stage _ := .ok (lockedTo "new")
  checkLock _ := .ok ()
  builds _ := .ok ()

def preparedUpdate : StagedManifest × Tree guestNix :=
  (⟨.generation, .switch, false, false, "/nix/store/new-nixos"⟩, ⟨lockedTo "new", emptyHost.config⟩)

theorem emptyHost_prepared :
    prepareGeneration guestNix updateToNew emptyHost (some (guestNix.closure emptyHost)) = .ok preparedUpdate := rfl

/-- What `activate_staged` switches to on some host. -/
def switchedTo (host : Tree guestNix) : Closure := guestNix.closure ⟨lockedTo "new", host.config⟩

theorem preparedUpdate_activated (host : Tree guestNix) :
    activateStaged guestNix preparedUpdate.1 none preparedUpdate.2 host (fun _ => .ok ()) =
      .ok (.liveSwitch (switchedTo host)) := rfl

def hostWithDb : Tree guestNix := hostWith [.imageOnly] (by decide)

def hostWithWeb : Tree guestNix := hostWith [.seeded] (by decide)

/-- A VM without a seed that is created between preparing and activating stays up. -/
theorem image_only_guest_kept : KeepsGuests (guestNix.closure hostWithDb) (switchedTo hostWithDb) := by
  apply (live_switch_keeps_guests_iff emptyHost_prepared (preparedUpdate_activated hostWithDb)).2
  refine ⟨.inl ⟨rfl, rfl⟩, fun v hv => .inr ?_⟩
  have hv : v = .imageOnly := List.mem_singleton.1 hv
  subst hv
  decide

/-- A VM with a seed that is created between preparing and activating is restarted by the switch: when the switch was
planned, the host had no VM whose unit could differ. -/
theorem seeded_guest_restarted :
    prepareGeneration guestNix updateToNew emptyHost (some (guestNix.closure emptyHost)) = .ok preparedUpdate ∧
    activateStaged guestNix preparedUpdate.1 none preparedUpdate.2 hostWithWeb (fun _ => .ok ()) =
      .ok (.liveSwitch (switchedTo hostWithWeb)) ∧
    ¬ KeepsGuests (guestNix.closure hostWithWeb) (switchedTo hostWithWeb) :=
  ⟨emptyHost_prepared, preparedUpdate_activated hostWithWeb, fun h => absurd h.2 (by decide)⟩

end Kcore.Update
