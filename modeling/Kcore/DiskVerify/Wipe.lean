import Kcore.DiskVerify.Disk
import Kcore.DiskVerify.Plan

/-!
# Wiping a disk

`wipe` writes zeros to the whole disk, or to its first and last 32 MiB, and reads them back, in chunks of 4 MiB. It
works on the size rounded down to a multiple of 4096 bytes, so it leaves the end of a disk whose size is no such
multiple, and the last 32 MiB that it zeroes are not the last ones of the disk.
-/

namespace Kcore.DiskVerify

def quickEdge : Nat := 32 * 1024 * 1024

def chunk : Nat := 4 * 1024 * 1024

inductive WipeMode where
  | quick
  | full
  deriving DecidableEq

namespace WipeMode

def asStr : WipeMode → String
  | quick => "quick"
  | full => "full"

end WipeMode

def ranges (size : Nat) (mode : WipeMode) : List (Nat × Nat) :=
  let size := size - size % align
  if size = 0 then []
  else match mode with
    | .full => [(0, size)]
    | .quick =>
      if size ≤ quickEdge * 2 then [(0, size)] else [(0, quickEdge), (size - quickEdge, size)]

def chunks (pos stop : Nat) : List (Nat × Nat) :=
  if pos < stop then (pos, min (stop - pos) chunk) :: chunks (pos + min (stop - pos) chunk) stop else []
termination_by stop - pos
decreasing_by
  have : 0 < chunk := by decide
  omega

structure WipeParams where
  device : String
  serial : String
  machineId : Option String
  mode : WipeMode

structure WipeReport where
  machineId : Option String
  driveSerial : String
  device : String
  phase : String
  mode : String
  passed : Bool
  bytesZeroed : Nat
  bytesVerified : Nat
  writeErrors : Nat
  readErrors : Nat
  nonzeroChunks : Nat
  detail : String

inductive WipeError where
  | io
  | tooSmall (text : String)

structure WipeCounts where
  zeroed : Nat
  verified : Nat
  writeErrors : Nat
  readErrors : Nat
  nonzero : Nat

namespace WipeCounts

def zero : WipeCounts := ⟨0, 0, 0, 0, 0⟩

def passed (c : WipeCounts) : Bool := c.writeErrors = 0 && c.readErrors = 0 && c.nonzero = 0

def detail (mode : WipeMode) (c : WipeCounts) : String :=
  let name := mode.asStr
  let verified := c.verified
  let writeErrors := c.writeErrors
  let readErrors := c.readErrors
  let nonzero := c.nonzero
  if c.passed then s!"{name} wipe: {verified} bytes zeroed and read back as zeros"
  else "; ".intercalate
    ((if 0 < writeErrors then [s!"{writeErrors} write errors"] else []) ++
      (if 0 < readErrors then [s!"{readErrors} read errors"] else []) ++
      (if 0 < nonzero then [s!"{nonzero} chunks did not read back as zeros"] else []))

def bad (c : WipeCounts) : Nat := c.writeErrors + c.readErrors + c.nonzero

theorem passed_iff {c : WipeCounts} : c.passed = true ↔ c.bad = 0 := by
  simp only [passed, bad, Bool.and_eq_true, decide_eq_true_eq]
  omega

end WipeCounts

section Wipe

variable {σ : Type} (disk : Disk σ)

def zeroChunk (acc : WipeCounts × σ) (c : Nat × Nat) : WipeCounts × σ :=
  let (written, s) := disk.write c.1 (List.replicate c.2 0) acc.2
  (if written then { acc.1 with zeroed := acc.1.zeroed + c.2 }
    else { acc.1 with writeErrors := acc.1.writeErrors + 1 }, s)

def readChunk (acc : WipeCounts × σ) (c : Nat × Nat) : WipeCounts × σ :=
  let (bytes, s) := disk.read c.1 c.2 acc.2
  match bytes with
  | none => ({ acc.1 with readErrors := acc.1.readErrors + 1 }, s)
  | some buf =>
    if buf.all (· = 0) then ({ acc.1 with verified := acc.1.verified + c.2 }, s)
    else ({ acc.1 with nonzero := acc.1.nonzero + 1 }, s)

def wipeReport (p : WipeParams) (c : WipeCounts) : WipeReport where
  machineId := p.machineId
  driveSerial := p.serial
  device := p.device
  phase := "wipe"
  mode := p.mode.asStr
  passed := c.passed
  bytesZeroed := c.zeroed
  bytesVerified := c.verified
  writeErrors := c.writeErrors
  readErrors := c.readErrors
  nonzeroChunks := c.nonzero
  detail := c.detail p.mode

def rounds (size : Nat) (mode : WipeMode) : List (Nat × Nat) := (ranges size mode).flatMap fun r => chunks r.1 r.2

def wipe (p : WipeParams) (s : σ) : Except WipeError WipeReport × σ :=
  match disk.seekEnd s with
  | none => (.error .io, s)
  | some size =>
    if ranges size p.mode = [] then (.error (.tooSmall s!"device is smaller than {align} bytes"), s)
    else
      let (c, s) := (rounds size p.mode).foldl (zeroChunk disk) (WipeCounts.zero, s)
      let (flushed, s) := disk.flush s
      if flushed then
        let (c, s) := (rounds size p.mode).foldl (readChunk disk) (c, s)
        (.ok (wipeReport p c), s)
      else (.error .io, s)

end Wipe

/-! ### Ranges and rounds -/

def Within (ranges : List (Nat × Nat)) (i : Nat) : Prop := ∃ r ∈ ranges, r.1 ≤ i ∧ i < r.2

def Touched (rounds : List (Nat × Nat)) (i : Nat) : Prop := ∃ c ∈ rounds, c.1 ≤ i ∧ i < c.1 + c.2

variable {size i : Nat}

theorem touched_chunks {pos stop : Nat} : Touched (chunks pos stop) i ↔ pos ≤ i ∧ i < stop := by
  have hpos : 0 < chunk := by decide
  fun_induction chunks pos stop with
  | case1 pos hlt ih =>
    simp only [Touched, List.exists_mem_cons_iff] at ih ⊢
    refine (or_congr_right ih).trans ?_
    omega
  | case2 pos hle =>
    simp only [Touched, List.not_mem_nil, false_and, exists_false, false_iff]
    omega

theorem touched_rounds {mode : WipeMode} : Touched (rounds size mode) i ↔ Within (ranges size mode) i := by
  unfold rounds Within
  simp only [← touched_chunks]
  unfold Touched
  simp only [List.mem_flatMap]
  constructor
  · rintro ⟨c, ⟨r, hr, hc⟩, hi⟩
    exact ⟨r, hr, c, hc, hi⟩
  · rintro ⟨r, hr, c, hc, hi⟩
    exact ⟨c, ⟨r, hr, hc⟩, hi⟩

theorem le_of_mem_chunks {pos stop : Nat} {c : Nat × Nat} (hc : c ∈ chunks pos stop) : c.1 + c.2 ≤ stop := by
  fun_induction chunks pos stop with
  | case1 pos hlt ih =>
    rcases List.mem_cons.mp hc with rfl | hc
    · dsimp only
      omega
    · exact ih hc
  | case2 pos hle => exact absurd hc List.not_mem_nil

theorem le_of_mem_ranges {mode : WipeMode} {r : Nat × Nat} (hr : r ∈ ranges size mode) : r.2 ≤ size - size % align := by
  cases mode with
  | quick =>
    dsimp only [ranges] at hr
    split_ifs at hr with hzero hsmall
    · exact absurd hr List.not_mem_nil
    · rw [List.mem_singleton.mp hr]
    · simp only [List.mem_cons, List.not_mem_nil, or_false] at hr
      rcases hr with rfl | rfl
      · dsimp only
        omega
      · exact Nat.le_refl _
  | full =>
    dsimp only [ranges] at hr
    split_ifs at hr with hzero
    · exact absurd hr List.not_mem_nil
    · rw [List.mem_singleton.mp hr]

theorem inside_of_mem_rounds {mode : WipeMode} {c : Nat × Nat} (hc : c ∈ rounds size mode) : c.1 + c.2 ≤ size := by
  obtain ⟨r, hr, hc⟩ := List.mem_flatMap.mp hc
  exact (le_of_mem_chunks hc).trans ((le_of_mem_ranges hr).trans (Nat.sub_le ..))

/-! ### The loops -/

section Loops

variable {σ : Type} {disk : Disk σ}

variable {rounds : List (Nat × Nat)}

theorem content_foldl_zeroChunk (disk : Disk σ) (hi : ¬Touched rounds i) (acc : WipeCounts × σ) :
    disk.content (rounds.foldl (zeroChunk disk) acc).2 i = disk.content acc.2 i := by
  induction rounds generalizing acc with
  | nil => rfl
  | cons c rounds ih =>
    simp only [Touched, List.exists_mem_cons_iff, not_or] at hi
    refine (ih hi.2 _).trans (disk.content_write _ _ _ _ ?_)
    rw [List.length_replicate]
    omega

theorem content_readChunk (acc : WipeCounts × σ) (c : Nat × Nat) :
    disk.content (readChunk disk acc c).2 = disk.content acc.2 := by
  have hread := disk.content_read c.1 c.2 acc.2
  unfold readChunk
  generalize disk.read c.1 c.2 acc.2 = r at hread ⊢
  obtain ⟨bytes, s'⟩ := r
  cases bytes with
  | none => exact hread
  | some buf =>
    dsimp only at hread ⊢
    split <;> exact hread

theorem content_foldl_readChunk (rounds : List (Nat × Nat)) (acc : WipeCounts × σ) :
    disk.content (rounds.foldl (readChunk disk) acc).2 = disk.content acc.2 := by
  induction rounds generalizing acc with
  | nil => rfl
  | cons c rounds ih => exact (ih _).trans (content_readChunk acc c)

theorem slice_all_zero {content : Nat → UInt8} {offset count : Nat} :
    (slice content offset count).all (· = 0) = true ↔ ∀ i, offset ≤ i → i < offset + count → content i = 0 := by
  have hzeros : (slice content offset count).all (· = 0) = true ↔
      slice content offset count = slice (fun _ => 0) offset count := by
    simp only [slice, List.all_map, List.all_eq_true, Function.comp_apply, decide_eq_true_eq, List.map_inj_left]
  rw [hzeros, slice_eq_slice]

theorem bad_readChunk (disk : Disk σ) (acc : WipeCounts × σ) (c : Nat × Nat) :
    (readChunk disk acc c).1.bad = acc.1.bad ∧ (∃ buf, (disk.read c.1 c.2 acc.2).1 = some buf ∧ buf.all (· = 0) = true) ∨
      (readChunk disk acc c).1.bad = acc.1.bad + 1 ∧
        ∀ buf, (disk.read c.1 c.2 acc.2).1 = some buf → buf.all (· = 0) = false := by
  unfold readChunk
  generalize disk.read c.1 c.2 acc.2 = r
  obtain ⟨bytes, s'⟩ := r
  cases bytes with
  | none =>
    refine .inr ⟨?_, fun buf hbuf => nomatch hbuf⟩
    simp only [WipeCounts.bad]
    omega
  | some buf =>
    dsimp only
    split_ifs with hzero
    · exact .inl ⟨rfl, buf, rfl, hzero⟩
    · refine .inr ⟨?_, ?_⟩
      · simp only [WipeCounts.bad]
        omega
      · rintro _ ⟨⟩
        exact Bool.eq_false_iff.mpr hzero

theorem le_bad_foldl_readChunk (disk : Disk σ) (rounds : List (Nat × Nat)) (acc : WipeCounts × σ) :
    acc.1.bad ≤ (rounds.foldl (readChunk disk) acc).1.bad := by
  induction rounds generalizing acc with
  | nil => exact Nat.le_refl _
  | cons c rounds ih =>
    refine Nat.le_trans ?_ (ih _)
    rcases bad_readChunk disk acc c with ⟨h, -⟩ | ⟨h, -⟩ <;> omega

theorem zero_of_bad_eq {acc : WipeCounts × σ} (h : (rounds.foldl (readChunk disk) acc).1.bad = 0)
    (hi : Touched rounds i) : disk.content acc.2 i = 0 := by
  induction rounds generalizing acc with
  | nil => simp [Touched] at hi
  | cons c rounds ih =>
    simp only [Touched, List.exists_mem_cons_iff] at hi
    rcases hi with ⟨hle, hlt⟩ | hi
    · have hmono := le_bad_foldl_readChunk disk rounds (readChunk disk acc c)
      rw [List.foldl_cons] at h
      rcases bad_readChunk disk acc c with ⟨-, buf, hread, hzero⟩ | ⟨hbad, -⟩
      · rw [disk.read_eq hread] at hzero
        exact slice_all_zero.mp hzero i hle hlt
      · omega
    · rw [← content_readChunk acc c]
      exact ih h hi

theorem bad_foldl_readChunk (hdisk : disk.Faithful) (hinside : ∀ c ∈ rounds, c.1 + c.2 ≤ disk.size)
    (acc : WipeCounts × σ) (h : ∀ i, Touched rounds i → disk.content acc.2 i = 0) :
    (rounds.foldl (readChunk disk) acc).1.bad = acc.1.bad := by
  induction rounds generalizing acc with
  | nil => rfl
  | cons c rounds ih =>
    obtain ⟨hin, hinside⟩ := List.forall_mem_cons.mp hinside
    simp only [Touched, List.exists_mem_cons_iff] at h
    have hrest : ∀ i, Touched rounds i → disk.content (readChunk disk acc c).2 i = 0 := by
      intro i hi
      rw [content_readChunk]
      exact h i (.inr hi)
    rw [List.foldl_cons, ih hinside _ hrest]
    rcases bad_readChunk disk acc c with ⟨hbad, -⟩ | ⟨-, hnonzero⟩
    · exact hbad
    · have hfalse := hnonzero _ (hdisk.read_eq hin acc.2)
      rw [slice_all_zero.mpr fun i hle hlt => h i (.inl ⟨hle, hlt⟩)] at hfalse
      exact nomatch hfalse

theorem foldl_zeroChunk (hdisk : disk.Faithful) (hinside : ∀ c ∈ rounds, c.1 + c.2 ≤ disk.size) (acc : WipeCounts × σ) :
    (rounds.foldl (zeroChunk disk) acc).1.bad = acc.1.bad ∧
      ∀ i, Touched rounds i ∨ disk.content acc.2 i = 0 → disk.content (rounds.foldl (zeroChunk disk) acc).2 i = 0 := by
  induction rounds generalizing acc with
  | nil =>
    refine ⟨rfl, ?_⟩
    rintro i (hi | hi)
    · simp [Touched] at hi
    · exact hi
  | cons c rounds ih =>
    obtain ⟨hin, hinside⟩ := List.forall_mem_cons.mp hinside
    obtain ⟨hok, hstored⟩ := hdisk.write c.1 (List.replicate c.2 0) acc.2 (by rw [List.length_replicate]; exact hin)
    rw [List.length_replicate] at hstored
    obtain ⟨hbad, hzero⟩ := ih hinside (zeroChunk disk acc c)
    have hcounts : (zeroChunk disk acc c).1.bad = acc.1.bad := by
      unfold zeroChunk
      dsimp only
      rw [hok]
      rfl
    rw [List.foldl_cons]
    refine ⟨hbad.trans hcounts, fun i hi => hzero i ?_⟩
    simp only [Touched, List.exists_mem_cons_iff] at hi
    by_cases hc : c.1 ≤ i ∧ i < c.1 + c.2
    · refine .inr ?_
      have hall : (slice (disk.content (zeroChunk disk acc c).2) c.1 c.2).all (· = 0) = true := by
        change (slice (disk.content (disk.write c.1 _ acc.2).2) c.1 c.2).all (· = 0) = true
        rw [hstored]
        simp
      exact slice_all_zero.mp hall i hc.1 hc.2
    · rcases hi with (hi | hi) | hi
      · exact absurd hi hc
      · exact .inl hi
      · refine .inr ((disk.content_write _ _ _ _ ?_).trans hi)
        rw [List.length_replicate]
        omega

end Loops

/-! ### A passed wipe -/

section Passed

variable {σ : Type} {disk : Disk σ}

theorem wipe_eq {p : WipeParams} {s s₁ : σ} {c : WipeCounts} (hend : disk.seekEnd s = some disk.size)
    (hranges : ranges disk.size p.mode ≠ [])
    (hzeroed : (rounds disk.size p.mode).foldl (zeroChunk disk) (WipeCounts.zero, s) = (c, s₁)) :
    wipe disk p s = if (disk.flush s₁).1 then
      (.ok (wipeReport p ((rounds disk.size p.mode).foldl (readChunk disk) (c, (disk.flush s₁).2)).1),
        ((rounds disk.size p.mode).foldl (readChunk disk) (c, (disk.flush s₁).2)).2)
      else (.error .io, (disk.flush s₁).2) := by
  unfold wipe
  simp only [hend, hranges, if_false, hzeroed]

theorem zero_of_passed {p : WipeParams} {s s' : σ} {r : WipeReport} (h : wipe disk p s = (.ok r, s'))
    (hpassed : r.passed = true) (i : Nat) :
    (Within (ranges disk.size p.mode) i → disk.content s' i = 0) ∧
      (¬Within (ranges disk.size p.mode) i → disk.content s' i = disk.content s i) := by
  cases hend : disk.seekEnd s with
  | none =>
    unfold wipe at h
    rw [hend] at h
    exact nomatch h
  | some n =>
    rw [disk.seekEnd_eq hend] at hend
    by_cases hranges : ranges disk.size p.mode = []
    · unfold wipe at h
      simp only [hend, hranges, if_true] at h
      exact nomatch h
    cases hzeroed : (rounds disk.size p.mode).foldl (zeroChunk disk) (WipeCounts.zero, s) with
    | mk c s₁ =>
      rw [wipe_eq hend hranges hzeroed] at h
      split at h
      · cases h
        have hbad := WipeCounts.passed_iff.mp hpassed
        rw [content_foldl_readChunk, ← touched_rounds]
        refine ⟨zero_of_bad_eq hbad, fun hi => ?_⟩
        have hunchanged := content_foldl_zeroChunk disk hi (WipeCounts.zero, s)
        rw [hzeroed] at hunchanged
        rw [disk.content_flush]
        exact hunchanged
      · exact nomatch h

theorem passes_of_faithful (hdisk : disk.Faithful) {p : WipeParams} (hranges : ranges disk.size p.mode ≠ []) (s : σ) :
    ∃ r s', wipe disk p s = (.ok r, s') ∧ r.passed = true := by
  cases hzeroed : (rounds disk.size p.mode).foldl (zeroChunk disk) (WipeCounts.zero, s) with
  | mk c s₁ =>
    have hinside : ∀ c ∈ rounds disk.size p.mode, c.1 + c.2 ≤ disk.size := fun _ => inside_of_mem_rounds
    obtain ⟨hbad, hzero⟩ := foldl_zeroChunk hdisk hinside (WipeCounts.zero, s)
    rw [hzeroed] at hbad hzero
    have hread : ∀ i, Touched (rounds disk.size p.mode) i → disk.content (disk.flush s₁).2 i = 0 := by
      intro i hi
      rw [disk.content_flush]
      exact hzero i (.inl hi)
    have hcounts := bad_foldl_readChunk hdisk hinside (c, (disk.flush s₁).2) hread
    refine ⟨_, _, (wipe_eq (hdisk.seekEnd s) hranges hzeroed).trans (if_pos (hdisk.flush s₁)), ?_⟩
    exact WipeCounts.passed_iff.mpr (hcounts.trans hbad)

end Passed

/-! ### Disks of every size -/

/-- The bytes that a wipe is there to zero: all bytes, or those of the first and last 32 MiB. -/
def Covered (size : Nat) (mode : WipeMode) (i : Nat) : Prop :=
  i < size ∧ (mode = .full ∨ size < quickEdge * 2 ∨ i < quickEdge ∨ size - quickEdge ≤ i)

/-- On every disk of the size, a passed wipe has zeroed the bytes that it is there to zero, and no others. -/
def Wipes (size : Nat) (mode : WipeMode) : Prop :=
  ∀ (σ : Type) (disk : Disk σ) (p : WipeParams) (s s' : σ) (r : WipeReport), disk.size = size → p.mode = mode →
    wipe disk p s = (.ok r, s') → r.passed = true →
      ∀ i < size, (Covered size mode i → disk.content s' i = 0) ∧
        (¬Covered size mode i → disk.content s' i = disk.content s i)

theorem ranges_ne_nil (hsize : align ≤ size) (mode : WipeMode) : ranges size mode ≠ [] := by
  have hpos : size - size % align ≠ 0 := by
    have hmod : size % align < align := Nat.mod_lt _ (by decide)
    omega
  unfold ranges
  dsimp only
  rw [if_neg hpos]
  cases mode with
  | full => exact List.cons_ne_nil _ _
  | quick =>
    dsimp only
    split <;> exact List.cons_ne_nil _ _

theorem within_iff_covered (hsize : align ≤ size) (halign : align ∣ size) (mode : WipeMode) (i : Nat) :
    Within (ranges size mode) i ↔ Covered size mode i := by
  have hmod : size % align = 0 := Nat.mod_eq_zero_of_dvd halign
  have hpos : size ≠ 0 := by
    unfold align at hsize
    omega
  unfold ranges
  dsimp only
  rw [hmod, Nat.sub_zero, if_neg hpos]
  cases mode with
  | full => simp [Within, Covered]
  | quick =>
    dsimp only
    split_ifs with hsmall
    · simp only [Within, Covered, List.mem_singleton, exists_eq_left, reduceCtorEq, false_or]
      omega
    · simp only [Within, Covered, List.exists_mem_cons_iff, List.not_mem_nil, false_and, exists_false, or_false,
        reduceCtorEq, false_or]
      omega

/-- The last byte of a disk is left if the size is no multiple of the alignment. -/
theorem not_wipes (hsize : align ≤ size) (halign : ¬align ∣ size) (mode : WipeMode) : ¬Wipes size mode := by
  intro h
  -- On a faithful disk of ones, the wipe passes and the last byte stays one.
  have hmod : size % align ≠ 0 := fun hzero => halign (Nat.dvd_of_mod_eq_zero hzero)
  have hpos : 0 < align := by decide
  have hedge : 0 < quickEdge := by decide
  let p : WipeParams := ⟨"", "", none, mode⟩
  obtain ⟨r, s', hrun, hpassed⟩ := passes_of_faithful (Disk.memory_faithful size) (p := p) (ranges_ne_nil hsize mode)
    fun _ => 1
  have hcovered : Covered size mode (size - 1) := by
    unfold Covered
    omega
  have houtside : ¬Within (ranges (Disk.memory size).size p.mode) (size - 1) := by
    rintro ⟨range, hrange, -, hlt⟩
    have hle : range.2 ≤ size - size % align := le_of_mem_ranges hrange
    omega
  have hzero : s' (size - 1) = 0 :=
    (h _ (Disk.memory size) p _ s' r rfl rfl hrun hpassed (size - 1) (by omega)).1 hcovered
  have hone : s' (size - 1) = 1 := (zero_of_passed hrun hpassed (size - 1)).2 houtside
  rw [hzero] at hone
  exact absurd hone (by decide)

/-- Wipes do what they are for on the disks whose size is a multiple of 4096 bytes, and on no others. -/
theorem wipes_iff {size : Nat} (hsize : align ≤ size) (mode : WipeMode) : Wipes size mode ↔ align ∣ size := by
  constructor
  · intro h
    by_contra halign
    exact not_wipes hsize halign mode h
  · rintro halign σ disk p s s' r rfl rfl hrun hpassed i -
    rw [← within_iff_covered hsize halign]
    exact zero_of_passed hrun hpassed i

theorem wipes_even_disk : align ≤ 8192 ∧ (Wipes 8192 .full ↔ align ∣ 8192) := ⟨by decide, wipes_iff (by decide) .full⟩

/-- On a disk of nine sectors of 512 bytes, the last sector stays as it is. -/
theorem last_sector_left : 512 ∣ 4608 ∧ align ≤ 4608 ∧ ¬Wipes 4608 .full :=
  ⟨by decide, by decide, not_wipes (by decide) (by decide) .full⟩

end Kcore.DiskVerify
