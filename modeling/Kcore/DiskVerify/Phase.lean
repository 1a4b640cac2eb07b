import Kcore.DiskVerify.Disk
import Kcore.DiskVerify.Plan

/-!
# Writing and verifying

`run_phase` writes the pattern of every region, in the first phase only, and then reads all regions and compares them
with their patterns. The pattern of a region depends on the nonce, the serial number and the offset, so the second phase
after a power cycle knows what the first one wrote. The check is complete on a faithful disk and sound on every disk.
-/

namespace Kcore.DiskVerify

inductive Phase where
  | write
  | verify

def Phase.asStr : Phase → String
  | write => "write"
  | verify => "verify"

structure Params where
  device : String
  serial : String
  nonce : String
  machineId : Option String
  regionLen : Nat
  regions : Nat

structure Report where
  machineId : Option String
  driveSerial : String
  device : String
  nonce : String
  phase : String
  passed : Bool
  bytesChecked : Nat
  regionsTotal : Nat
  regionsZeroed : Nat
  regionsMismatched : Nat
  readErrors : Nat
  detail : String

inductive RunError where
  | io
  | plan (e : PlanError)

inductive RegionState where
  | ok
  | zeroed
  | mismatch
  | readError
  deriving DecidableEq

structure Counts where
  zeroed : Nat
  mismatched : Nat
  readErrors : Nat
  writeErrors : Nat
  bytesChecked : Nat

namespace Counts

def zero : Counts := ⟨0, 0, 0, 0, 0⟩

def add (len : Nat) (c : Counts) : RegionState → Counts
  | .ok => { c with bytesChecked := c.bytesChecked + len }
  | .zeroed => { c with zeroed := c.zeroed + 1 }
  | .mismatch => { c with mismatched := c.mismatched + 1 }
  | .readError => { c with readErrors := c.readErrors + 1 }

def passed (c : Counts) : Bool :=
  c.zeroed = 0 && c.mismatched = 0 && c.readErrors = 0 && c.writeErrors = 0

def detail (phase : Phase) (total : Nat) (c : Counts) : String :=
  if c.passed then
    match phase with
    | .write => s!"{total} regions written and read back"
    | .verify => s!"{total} regions intact"
  else
    let zeroed := c.zeroed
    let mismatched := c.mismatched
    let readErrors := c.readErrors
    let writeErrors := c.writeErrors
    "; ".intercalate
      ((if 0 < zeroed then [s!"{zeroed} of {total} regions read back as zeros"] else []) ++
        (if 0 < mismatched then [s!"{mismatched} regions hold wrong data"] else []) ++
        (if 0 < readErrors then [s!"{readErrors} read errors"] else []) ++
        (if 0 < writeErrors then [s!"{writeErrors} write errors"] else []))

def bad (c : Counts) : Nat := c.zeroed + c.mismatched + c.readErrors + c.writeErrors

private theorem passed_iff {c : Counts} : c.passed = true ↔ c.bad = 0 := by
  simp only [passed, bad, Bool.and_eq_true, decide_eq_true_eq]
  omega

private theorem bad_add (len : Nat) (c : Counts) (r : RegionState) :
    (c.add len r).bad = c.bad + if r = .ok then 0 else 1 := by
  cases r <;> simp only [add, bad, reduceCtorEq, if_true, if_false] <;> omega

end Counts

section Run

variable (sha256 : List UInt8 → Vector UInt8 32) (nonce serial : String)

def fillPattern (len offset : Nat) : List UInt8 :=
  ((List.range ((len + 31) / 32)).flatMap fun index =>
    (sha256 (utf8 nonce ++ [0] ++ utf8 serial ++ [0] ++ leBytes 8 offset ++ leBytes 8 index)).toList).take len

variable {σ : Type} (disk : Disk σ)

def checkRegion (offset : Nat) (expected : List UInt8) (s : σ) : RegionState × σ :=
  let (bytes, s) := disk.read offset expected.length s
  match bytes with
  | none => (.readError, s)
  | some buf =>
    if buf = expected then (.ok, s)
    else if buf.all (· = 0) then (.zeroed, s)
    else (.mismatch, s)

def writeRegion (len : Nat) (acc : Counts × σ) (offset : Nat) : Counts × σ :=
  let (written, s) := disk.write offset (fillPattern sha256 nonce serial len offset) acc.2
  (if written then acc.1 else { acc.1 with writeErrors := acc.1.writeErrors + 1 }, s)

def countRegion (len : Nat) (acc : Counts × σ) (offset : Nat) : Counts × σ :=
  let (state, s) := checkRegion disk offset (fillPattern sha256 nonce serial len offset) acc.2
  (acc.1.add len state, s)

def report (p : Params) (phase : Phase) (total : Nat) (c : Counts) : Report where
  machineId := p.machineId
  driveSerial := p.serial
  device := p.device
  nonce := p.nonce
  phase := phase.asStr
  passed := c.passed
  bytesChecked := c.bytesChecked
  regionsTotal := total
  regionsZeroed := c.zeroed
  regionsMismatched := c.mismatched
  readErrors := c.readErrors + c.writeErrors
  detail := c.detail phase total

def runPhase (phase : Phase) (p : Params) (s : σ) : Except RunError Report × σ :=
  match disk.seekEnd s with
  | none => (.error .io, s)
  | some size =>
    match plan sha256 size p.regionLen p.nonce p.serial p.regions with
    | .error e => (.error (.plan e), s)
    | .ok offsets =>
      let check (acc : Counts × σ) : Except RunError Report × σ :=
        let (c, s) := offsets.foldl (countRegion sha256 p.nonce p.serial disk p.regionLen) acc
        (.ok (report p phase offsets.length c), s)
      match phase with
      | .write =>
        let (c, s) := offsets.foldl (writeRegion sha256 p.nonce p.serial disk p.regionLen) (Counts.zero, s)
        let (flushed, s) := disk.flush s
        if flushed then check (c, s) else (.error .io, s)
      | .verify => check (Counts.zero, s)

private theorem length_fillPattern (len offset : Nat) : (fillPattern sha256 nonce serial len offset).length = len := by
  have hblocks : ((List.range ((len + 31) / 32)).flatMap fun index =>
      (sha256 (utf8 nonce ++ [0] ++ utf8 serial ++ [0] ++ leBytes 8 offset ++ leBytes 8 index)).toList).length =
      (len + 31) / 32 * 32 := by
    simp [List.length_flatMap]
  unfold fillPattern
  rw [List.length_take, hblocks]
  omega

/-! ### The loops -/

private theorem checkRegion_spec (offset : Nat) (expected : List UInt8) (s : σ) :
    disk.content (checkRegion disk offset expected s).2 = disk.content s ∧
      ((checkRegion disk offset expected s).1 = .ok ↔
        (disk.read offset expected.length s).1 = some expected) := by
  have hread := disk.content_read offset expected.length s
  unfold checkRegion
  generalize disk.read offset expected.length s = r at hread ⊢
  obtain ⟨bytes, s'⟩ := r
  cases bytes with
  | none => simpa using hread
  | some buf =>
    dsimp only at hread ⊢
    split_ifs with hmatch hzero
    · exact ⟨hread, by simp [hmatch]⟩
    · exact ⟨hread, by simp [hmatch]⟩
    · exact ⟨hread, by simp [hmatch]⟩

def Holds (len : Nat) (offsets : List Nat) (content : Nat → UInt8) : Prop :=
  ∀ o ∈ offsets, slice content o len = fillPattern sha256 nonce serial len o

private theorem countRegion_content (len : Nat) (acc : Counts × σ) (offset : Nat) :
    disk.content (countRegion sha256 nonce serial disk len acc offset).2 = disk.content acc.2 :=
  (checkRegion_spec disk offset _ acc.2).1

private theorem bad_countRegion (len : Nat) (acc : Counts × σ) (offset : Nat) :
    (countRegion sha256 nonce serial disk len acc offset).1.bad =
      acc.1.bad +
        if (disk.read offset len acc.2).1 = some (fillPattern sha256 nonce serial len offset) then 0 else 1 := by
  have hcheck := (checkRegion_spec disk offset (fillPattern sha256 nonce serial len offset) acc.2).2
  rw [length_fillPattern] at hcheck
  refine (Counts.bad_add ..).trans (congrArg (acc.1.bad + ·) ?_)
  exact if_congr hcheck rfl rfl

private theorem le_bad_foldl (len : Nat) (offsets : List Nat) (acc : Counts × σ) :
    acc.1.bad ≤ (offsets.foldl (countRegion sha256 nonce serial disk len) acc).1.bad := by
  induction offsets generalizing acc with
  | nil => exact Nat.le_refl _
  | cons o offsets ih =>
    refine Nat.le_trans ?_ (ih _)
    rw [bad_countRegion]
    exact Nat.le_add_right ..

variable {disk} {offsets : List Nat} {p : Params}

private theorem holds_of_bad_eq {len : Nat} {acc : Counts × σ}
    (h : (offsets.foldl (countRegion sha256 nonce serial disk len) acc).1.bad = 0) :
    Holds sha256 nonce serial len offsets (disk.content acc.2) := by
  induction offsets generalizing acc with
  | nil => exact fun o ho => absurd ho List.not_mem_nil
  | cons o offsets ih =>
    have hrest := ih h
    rw [countRegion_content] at hrest
    have hle := le_bad_foldl sha256 nonce serial disk len offsets (countRegion sha256 nonce serial disk len acc o)
    rw [List.foldl_cons] at h
    rw [bad_countRegion] at hle
    have hread : (disk.read o len acc.2).1 = some (fillPattern sha256 nonce serial len o) := by
      by_contra hne
      rw [if_neg hne] at hle
      omega
    exact List.forall_mem_cons.mpr ⟨(disk.read_eq hread).symm, hrest⟩

private theorem bad_foldl_of_holds (hdisk : disk.Faithful) {len : Nat} (hinside : ∀ o ∈ offsets, o + len ≤ disk.size)
    (acc : Counts × σ) (h : Holds sha256 nonce serial len offsets (disk.content acc.2)) :
    (offsets.foldl (countRegion sha256 nonce serial disk len) acc).1.bad = acc.1.bad := by
  induction offsets generalizing acc with
  | nil => rfl
  | cons o offsets ih =>
    obtain ⟨ho, hoffsets⟩ := List.forall_mem_cons.mp h
    obtain ⟨hin, hinside⟩ := List.forall_mem_cons.mp hinside
    rw [List.foldl_cons, ih hinside _ (by rw [countRegion_content]; exact hoffsets), bad_countRegion, if_pos,
      Nat.add_zero]
    rw [hdisk.read_eq hin, ho]

/-- On a faithful disk, the regions hold their patterns after they have been written, since none of them is written
again. -/
private theorem foldl_writeRegion (hdisk : disk.Faithful) {len : Nat} (hinside : ∀ o ∈ offsets, o + len ≤ disk.size)
    (hapart : offsets.Pairwise (Apart len)) (acc : Counts × σ) :
    (offsets.foldl (writeRegion sha256 nonce serial disk len) acc).1 = acc.1 ∧
      Holds sha256 nonce serial len offsets
        (disk.content (offsets.foldl (writeRegion sha256 nonce serial disk len) acc).2) ∧
      ∀ o, (∀ o' ∈ offsets, Apart len o o') →
        slice (disk.content (offsets.foldl (writeRegion sha256 nonce serial disk len) acc).2) o len =
          slice (disk.content acc.2) o len := by
  induction offsets generalizing acc with
  | nil => exact ⟨rfl, fun o ho => absurd ho List.not_mem_nil, fun _ _ => rfl⟩
  | cons o offsets ih =>
    obtain ⟨hin, hinside⟩ := List.forall_mem_cons.mp hinside
    obtain ⟨hfirst, hapart⟩ := List.pairwise_cons.mp hapart
    have hlen := length_fillPattern sha256 nonce serial len o
    obtain ⟨hok, hstored⟩ := hdisk.write o (fillPattern sha256 nonce serial len o) acc.2 (by rw [hlen]; exact hin)
    rw [hlen] at hstored
    have hcounts : (writeRegion sha256 nonce serial disk len acc o).1 = acc.1 := by
      unfold writeRegion
      dsimp only
      rw [hok]
      rfl
    obtain ⟨hsame, hholds, hother⟩ := ih hinside hapart (writeRegion sha256 nonce serial disk len acc o)
    rw [List.foldl_cons]
    refine ⟨hsame.trans hcounts, List.forall_mem_cons.mpr ⟨(hother o hfirst).trans hstored, hholds⟩, ?_⟩
    intro o' ho'
    obtain ⟨hfar, ho'⟩ := List.forall_mem_cons.mp ho'
    refine (hother o' ho').trans (slice_eq_slice.mpr ?_)
    intro i hle hlt
    refine disk.content_write o _ acc.2 i ?_
    rw [hlen]
    unfold Apart at hfar
    omega

/-! ### The phases -/

private theorem runPhase_verify {s : σ} (hend : disk.seekEnd s = some disk.size)
    (hplan : plan sha256 disk.size p.regionLen p.nonce p.serial p.regions = .ok offsets) :
    (runPhase sha256 disk .verify p s).1 = .ok (report p .verify offsets.length
      (offsets.foldl (countRegion sha256 p.nonce p.serial disk p.regionLen) (Counts.zero, s)).1) := by
  unfold runPhase
  simp only [hend, hplan]

private theorem runPhase_write {s s₁ : σ} {c : Counts} (hend : disk.seekEnd s = some disk.size)
    (hplan : plan sha256 disk.size p.regionLen p.nonce p.serial p.regions = .ok offsets)
    (hwritten : offsets.foldl (writeRegion sha256 p.nonce p.serial disk p.regionLen) (Counts.zero, s) = (c, s₁))
    (hflush : (disk.flush s₁).1 = true) :
    runPhase sha256 disk .write p s =
      (.ok (report p .write offsets.length
        (offsets.foldl (countRegion sha256 p.nonce p.serial disk p.regionLen) (c, (disk.flush s₁).2)).1),
      (offsets.foldl (countRegion sha256 p.nonce p.serial disk p.regionLen) (c, (disk.flush s₁).2)).2) := by
  unfold runPhase
  simp only [hend, hplan, hwritten, hflush, if_true]

private theorem content_foldl_countRegion (len : Nat) (offsets : List Nat) (acc : Counts × σ) :
    disk.content (offsets.foldl (countRegion sha256 nonce serial disk len) acc).2 = disk.content acc.2 := by
  induction offsets generalizing acc with
  | nil => rfl
  | cons o offsets ih => exact (ih _).trans (countRegion_content ..)

private theorem written_of_faithful (hdisk : disk.Faithful)
    (hplan : plan sha256 disk.size p.regionLen p.nonce p.serial p.regions = .ok offsets) (s : σ) :
    ∃ written s', runPhase sha256 disk .write p s = (.ok written, s') ∧ written.passed = true ∧
      Holds sha256 p.nonce p.serial p.regionLen offsets (disk.content s') := by
  obtain ⟨-, hspread⟩ := spread_of_plan sha256 p.nonce p.serial hplan
  obtain ⟨hcounts, hholds, -⟩ := foldl_writeRegion sha256 p.nonce p.serial hdisk hspread.inside
    (hspread.ascending.imp .inl) (Counts.zero, s)
  cases hw : offsets.foldl (writeRegion sha256 p.nonce p.serial disk p.regionLen) (Counts.zero, s) with
  | mk c s₁ =>
    rw [hw] at hcounts hholds
    have hflushed : Holds sha256 p.nonce p.serial p.regionLen offsets (disk.content (disk.flush s₁).2) := by
      rw [disk.content_flush]
      exact hholds
    have hbad := bad_foldl_of_holds sha256 p.nonce p.serial hdisk hspread.inside (c, (disk.flush s₁).2) hflushed
    refine ⟨_, _, runPhase_write sha256 (hdisk.seekEnd s) hplan hw (hdisk.flush s₁), ?_, ?_⟩
    · refine Counts.passed_iff.mpr (hbad.trans ?_)
      rw [show c = Counts.zero from hcounts]
      rfl
    · rw [content_foldl_countRegion]
      exact hflushed

private theorem verifies_of_holds (hdisk : disk.Faithful)
    (hplan : plan sha256 disk.size p.regionLen p.nonce p.serial p.regions = .ok offsets) {t : σ}
    (ht : Holds sha256 p.nonce p.serial p.regionLen offsets (disk.content t)) :
    ∃ verified, (runPhase sha256 disk .verify p t).1 = .ok verified ∧ verified.passed = true := by
  obtain ⟨-, hspread⟩ := spread_of_plan sha256 p.nonce p.serial hplan
  have hbad := bad_foldl_of_holds sha256 p.nonce p.serial hdisk hspread.inside (Counts.zero, t) ht
  exact ⟨_, runPhase_verify sha256 (hdisk.seekEnd t) hplan, Counts.passed_iff.mpr hbad⟩

private theorem holds_of_verified (hplan : plan sha256 disk.size p.regionLen p.nonce p.serial p.regions = .ok offsets)
    {t : σ} {verified : Report} (h : (runPhase sha256 disk .verify p t).1 = .ok verified)
    (hpassed : verified.passed = true) :
    Holds sha256 p.nonce p.serial p.regionLen offsets (disk.content t) := by
  cases hend : disk.seekEnd t with
  | none =>
    unfold runPhase at h
    rw [hend] at h
    exact nomatch h
  | some n =>
    rw [disk.seekEnd_eq hend] at hend
    rw [runPhase_verify sha256 hend hplan] at h
    cases h
    exact holds_of_bad_eq sha256 p.nonce p.serial (Counts.passed_iff.mp hpassed)

/-- The regions are spread over the disk; a faithful disk passes the first phase and any later second one that finds the
same content; and a disk on which a byte of a region is not the one that was written does not pass the second phase. -/
theorem retention_check (disk : Disk σ) (p : Params) {offsets : List Nat}
    (hplan : plan sha256 disk.size p.regionLen p.nonce p.serial p.regions = .ok offsets) :
    Spread disk.size p.regionLen p.regions offsets ∧
      (disk.Faithful → ∀ s, ∃ written s', runPhase sha256 disk .write p s = (.ok written, s') ∧ written.passed = true ∧
        ∀ t, disk.content t = disk.content s' →
          ∃ verified, (runPhase sha256 disk .verify p t).1 = .ok verified ∧ verified.passed = true) ∧
      ∀ t, ∀ o ∈ offsets, ∀ i < p.regionLen,
        (fillPattern sha256 p.nonce p.serial p.regionLen o)[i]? ≠ some (disk.content t (o + i)) →
          ∀ verified, (runPhase sha256 disk .verify p t).1 = .ok verified → verified.passed = false := by
  refine ⟨(spread_of_plan sha256 p.nonce p.serial hplan).2, ?_, ?_⟩
  · intro hdisk s
    obtain ⟨written, s', hrun, hpassed, hholds⟩ := written_of_faithful sha256 hdisk hplan s
    refine ⟨written, s', hrun, hpassed, fun t ht => ?_⟩
    exact verifies_of_holds sha256 hdisk hplan (by rw [ht]; exact hholds)
  · intro t o ho i hi hdiffers verified hrun
    rw [← Bool.not_eq_true]
    intro hpassed
    have hslice := holds_of_verified sha256 hplan hrun hpassed o ho
    rw [← hslice] at hdiffers
    exact hdiffers (by simp [slice, hi])

private theorem content_foldl_writeRegion (disk : Disk σ) (len : Nat) {i : Nat}
    (hout : ∀ o ∈ offsets, i < o ∨ o + len ≤ i) (acc : Counts × σ) :
    disk.content (offsets.foldl (writeRegion sha256 nonce serial disk len) acc).2 i =
      disk.content acc.2 i := by
  induction offsets generalizing acc with
  | nil => rfl
  | cons o offsets ih =>
    obtain ⟨ho, hout⟩ := List.forall_mem_cons.mp hout
    refine (ih hout _).trans (disk.content_write o _ acc.2 i ?_)
    rw [length_fillPattern]
    exact ho

/-- Whichever operations of the disk fail, a run changes no byte outside the planned regions, and none at all in the
second phase. -/
theorem rest_of_disk_untouched (disk : Disk σ) (phase : Phase) (p : Params) (s : σ) (i : Nat)
    (h : phase = .write → ∀ offsets, plan sha256 disk.size p.regionLen p.nonce p.serial p.regions = .ok offsets →
      ∀ o ∈ offsets, i < o ∨ o + p.regionLen ≤ i) :
    disk.content (runPhase sha256 disk phase p s).2 i = disk.content s i := by
  unfold runPhase
  cases hend : disk.seekEnd s with
  | none => rfl
  | some size =>
    obtain rfl := disk.seekEnd_eq hend
    cases hplan : plan sha256 disk.size p.regionLen p.nonce p.serial p.regions with
    | error e => simp only [hplan]
    | ok offsets =>
      simp only [hplan]
      cases phase with
      | verify => rw [content_foldl_countRegion]
      | write =>
        have hwritten := content_foldl_writeRegion sha256 p.nonce p.serial disk p.regionLen (h rfl offsets hplan)
          (Counts.zero, s)
        dsimp only
        split
        · rw [content_foldl_countRegion, disk.content_flush]
          exact hwritten
        · rw [disk.content_flush]
          exact hwritten

end Run

/-- Four regions on a disk of eight: the three fixed ones and the one that the hash gives first. -/
def smallParams : Params := ⟨"/dev/sda", "S1", "nonce", none, 4096, 4⟩

def smallHash : List UInt8 → Vector UInt8 32 := fun _ => (Vector.replicate 32 0).set 1 0x60

private theorem plan_small :
    plan smallHash (Disk.memory 32768).size smallParams.regionLen smallParams.nonce smallParams.serial
    smallParams.regions = .ok [0, 12288, 24576, 28672] := rfl

theorem retention_check_small :
    2 ≤ smallParams.regions ∧ Spread (Disk.memory 32768).size smallParams.regionLen 4 [0, 12288, 24576, 28672] :=
  ⟨by decide, (retention_check smallHash (Disk.memory 32768) smallParams plan_small).1⟩

theorem rest_of_small_untouched : (Disk.memory 32768).content
    (runPhase smallHash (Disk.memory 32768) .write smallParams fun _ => 7).2 9000 = 7 := by
  refine (rest_of_disk_untouched _ (Disk.memory 32768) .write smallParams (fun _ => 7) 9000 ?_).trans rfl
  intro _ offsets hplan
  have hoffsets := plan_small.symm.trans hplan
  cases hoffsets
  decide

end Kcore.DiskVerify
