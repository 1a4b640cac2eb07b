import Kcore.Export.Extent
import Kcore.Lib.Checks
import Mathlib.Data.List.Sort

/-!
# Extents in normal form

Sources of changed blocks report ranges of bytes in any order, overlapping and of any size. They are merged to extents
with gaps between them, cut into blocks for the transfer, or widened to whole blocks. A list of extents stands for the
set of bytes in its valid members, `Covers`; each function is described by what it does to this set.

Arithmetic on `i64` that overflows is a failure.
-/

namespace Kcore.Export.Normal

open Checks

def maxI64 : Int := 9223372036854775807

def maxBlockSize : Int := 8 * 1024 * 1024

/-! ### The source -/

def stop (e : Extent) : Int := max (-maxI64 - 1) (min (e.offset + e.length) maxI64)

/-- What `merge_extents` keeps. -/
def Valid (e : Extent) : Prop := 0 < e.length ∧ 0 ≤ e.offset

instance (e : Extent) : Decidable (Valid e) := inferInstanceAs (Decidable (_ ∧ _))

/-- The loop of `merge_extents`, from the current extent on. -/
def mergeFrom (cur : Extent) : List Extent → List Extent
  | [] => [cur]
  | next :: extents =>
    if next.offset ≤ stop cur then
      mergeFrom { cur with length := max (stop cur) (stop next) - cur.offset } extents
    else cur :: mergeFrom next extents

def ByOffset (a b : Extent) : Prop := a.offset ≤ b.offset

instance : DecidableRel ByOffset := fun a b => inferInstanceAs (Decidable (a.offset ≤ b.offset))

instance : Std.Total ByOffset := ⟨fun a b => Int.le_total a.offset b.offset⟩

instance : IsTrans Extent ByOffset := ⟨fun _ _ _ => Int.le_trans⟩

def mergeExtents (extents : List Extent) : List Extent :=
  match (extents.filter (Valid ·)).insertionSort ByOffset with
  | [] => []
  | cur :: rest => mergeFrom cur rest

/-- The loop of `extents_to_blocks` over one extent, from an offset on. A block has a byte at least, so the bytes that
are left are fuel enough. -/
def blocksFrom (blockSize last : Int) : Nat → Int → List Extent
  | 0, _ => []
  | fuel + 1, off =>
    if off < last then
      let len := min (last - off) blockSize
      ⟨off, len⟩ :: blocksFrom blockSize last fuel (off + len)
    else []

def extentsToBlocks (extents : List Extent) (blockSize : Int) : Except String (List Extent) :=
  if blockSize ≤ 0 then .error "block_size must be positive"
  else if blockSize > maxBlockSize then .error s!"block_size must be <= {maxBlockSize}"
  else .ok ((mergeExtents extents).flatMap fun e => blocksFrom blockSize (stop e) (stop e - e.offset).toNat e.offset)

def add (a b : Int) : Except String Int :=
  if fitsI64 (a + b) then .ok (a + b) else .error "attempt to add with overflow"

/-- The loop body of `align_extents_to_blocks`. Only what is not negative is divided. -/
def align (blockSize : Int) (e : Extent) : Except String Extent := do
  let start := e.offset / blockSize * blockSize
  let sum ← add (stop e) blockSize
  let last := (sum - 1) / blockSize * blockSize
  .ok ⟨start, last - start⟩

def alignExtentsToBlocks (extents : List Extent) (blockSize : Int) : Except String (List Extent) :=
  if blockSize ≤ 0 then .error "block_size must be positive"
  else do
    let aligned ← (extents.filter (Valid ·)).mapM (align blockSize)
    .ok (mergeExtents aligned)

/-! ### Bytes -/

def Holds (e : Extent) (x : Int) : Prop := Valid e ∧ e.offset ≤ x ∧ x < e.offset + e.length

def Covers (extents : List Extent) (x : Int) : Prop := ∃ e ∈ extents, Holds e x

def Bounded (e : Extent) : Prop := e.offset + e.length ≤ maxI64

structure IsNormal (extents : List Extent) : Prop where
  valid : ∀ e ∈ extents, Valid e
  gaps : extents.Pairwise fun a b => a.offset + a.length < b.offset

@[simp] theorem covers_nil (x : Int) : ¬ Covers [] x := by
  rintro ⟨e, he, -⟩
  exact absurd he List.not_mem_nil

variable {extents : List Extent} {blockSize : Int} {e : Extent}

@[simp] theorem covers_cons {x : Int} : Covers (e :: extents) x ↔ Holds e x ∨ Covers extents x := by
  simp only [Covers, List.mem_cons, or_and_right, exists_or, exists_eq_left]

theorem stop_of_bounded (hv : Valid e) (hb : Bounded e) : stop e = e.offset + e.length := by
  have hle : e.offset + e.length ≤ maxI64 := hb
  obtain ⟨hlen, hoff⟩ := hv
  unfold stop maxI64 at *
  omega

/-! ### Merging -/

theorem join_spec {cur next join : Extent} (vc : Valid cur) (bc : Bounded cur) (vn : Valid next) (bn : Bounded next)
    (hstart : cur.offset ≤ next.offset) (htouch : next.offset ≤ cur.offset + cur.length)
    (hoff : join.offset = cur.offset)
    (hend : join.offset + join.length = max (cur.offset + cur.length) (next.offset + next.length)) :
    Valid join ∧ Bounded join ∧ ∀ x, Holds join x ↔ Holds cur x ∨ Holds next x := by
  have vj : Valid join := by
    unfold Valid at *
    omega
  have bj : Bounded join := by
    unfold Bounded at *
    omega
  refine ⟨vj, bj, fun x => ?_⟩
  unfold Holds
  simp only [vj, vc, vn, true_and]
  omega

theorem IsNormal.cons {cur : Extent} (h : IsNormal extents) (hv : Valid cur)
    (hgap : ∀ e ∈ extents, cur.offset + cur.length < e.offset) : IsNormal (cur :: extents) :=
  ⟨List.forall_mem_cons.mpr ⟨hv, h.valid⟩, List.pairwise_cons.mpr ⟨hgap, h.gaps⟩⟩

/-- What the loop has made of the extents so far: the current extent and those that follow. -/
theorem mergeFrom_spec {cur : Extent} (hvalid : ∀ e ∈ cur :: extents, Valid e)
    (hbounded : ∀ e ∈ cur :: extents, Bounded e) (hsorted : (cur :: extents).Pairwise ByOffset) :
    IsNormal (mergeFrom cur extents) ∧ (∀ e ∈ mergeFrom cur extents, Bounded e ∧ cur.offset ≤ e.offset) ∧
      ∀ x, Covers (mergeFrom cur extents) x ↔ Covers (cur :: extents) x := by
  induction extents generalizing cur with
  | nil =>
    have hc := hbounded cur List.mem_cons_self
    refine ⟨⟨hvalid, List.pairwise_singleton _ _⟩, ?_, fun x => Iff.rfl⟩
    intro e he
    rw [List.mem_singleton.mp he]
    exact ⟨hc, Int.le_refl _⟩
  | cons next extents ih =>
    obtain ⟨hle, hsorted'⟩ := List.pairwise_cons.mp hsorted
    obtain ⟨hnext, hrest⟩ := List.pairwise_cons.mp hsorted'
    have vc := hvalid cur List.mem_cons_self
    have bc := hbounded cur List.mem_cons_self
    have vn := hvalid next (List.mem_cons_of_mem cur List.mem_cons_self)
    have bn := hbounded next (List.mem_cons_of_mem cur List.mem_cons_self)
    have hstart : cur.offset ≤ next.offset := hle next List.mem_cons_self
    rw [mergeFrom, stop_of_bounded vc bc, stop_of_bounded vn bn]
    by_cases htouch : next.offset ≤ cur.offset + cur.length
    · -- The two become one extent, which stands first among the remaining ones.
      rw [if_pos htouch]
      generalize hjoin :
        ({ cur with length := max (cur.offset + cur.length) (next.offset + next.length) - cur.offset } : Extent) = join
      have hoff : join.offset = cur.offset := by rw [← hjoin]
      have hend : join.offset + join.length = max (cur.offset + cur.length) (next.offset + next.length) := by
        rw [← hjoin]
        dsimp only
        omega
      obtain ⟨vj, bj, hholds⟩ := join_spec vc bc vn bn hstart htouch hoff hend
      have hsorted_join : (join :: extents).Pairwise ByOffset :=
        List.pairwise_cons.mpr ⟨fun e he => hoff.le.trans (hle e (List.mem_cons_of_mem _ he)), hrest⟩
      obtain ⟨hnormal, hbounds, hcovers⟩ := ih
        (List.forall_mem_cons.mpr ⟨vj, (List.forall_mem_cons.mp (List.forall_mem_cons.mp hvalid).2).2⟩)
        (List.forall_mem_cons.mpr ⟨bj, (List.forall_mem_cons.mp (List.forall_mem_cons.mp hbounded).2).2⟩) hsorted_join
      refine ⟨hnormal, fun e he => hoff ▸ hbounds e he, ?_⟩
      intro x
      rw [hcovers, covers_cons, covers_cons, covers_cons, ← or_assoc, hholds]
    · rw [if_neg htouch]
      obtain ⟨hnormal, hbounds, hcovers⟩ := ih (List.forall_mem_cons.mp hvalid).2
        (List.forall_mem_cons.mp hbounded).2 hsorted'
      refine ⟨hnormal.cons vc fun e he => ?_, ?_, ?_⟩
      · have hafter := (hbounds e he).2
        omega
      · intro e he
        rcases List.mem_cons.mp he with rfl | he
        · exact ⟨bc, Int.le_refl _⟩
        · exact ⟨(hbounds e he).1, Int.le_trans hstart (hbounds e he).2⟩
      · intro x
        rw [covers_cons, hcovers, ← covers_cons]

theorem covers_filter {x : Int} : Covers (extents.filter (Valid ·)) x ↔ Covers extents x := by
  constructor
  · rintro ⟨e, he, hx⟩
    exact ⟨e, List.mem_of_mem_filter he, hx⟩
  · rintro ⟨e, he, hx⟩
    exact ⟨e, List.mem_filter.mpr ⟨he, decide_eq_true hx.1⟩, hx⟩

theorem mergeExtents_spec (hbounded : ∀ e ∈ extents, Bounded e) :
    IsNormal (mergeExtents extents) ∧ (∀ e ∈ mergeExtents extents, Bounded e) ∧
      ∀ x, Covers (mergeExtents extents) x ↔ Covers extents x := by
  have hmem : ∀ e, e ∈ (extents.filter (Valid ·)).insertionSort ByOffset ↔ e ∈ extents ∧ Valid e := by
    intro e
    rw [List.mem_insertionSort, List.mem_filter, decide_eq_true_eq]
  have hcov : ∀ x, Covers ((extents.filter (Valid ·)).insertionSort ByOffset) x ↔ Covers extents x := by
    intro x
    refine Iff.trans ?_ covers_filter
    simp only [Covers, List.mem_insertionSort]
  have hsorted := List.pairwise_insertionSort ByOffset (extents.filter (Valid ·))
  rw [mergeExtents]
  cases hl : (extents.filter (Valid ·)).insertionSort ByOffset with
  | nil =>
    rw [hl] at hcov
    exact ⟨⟨fun e he => absurd he List.not_mem_nil, List.Pairwise.nil⟩, fun e he => absurd he List.not_mem_nil, hcov⟩
  | cons cur rest =>
    rw [hl] at hmem hcov hsorted
    obtain ⟨hnormal, hbounds, hcovers⟩ := mergeFrom_spec (fun e he => ((hmem e).mp he).2)
      (fun e he => hbounded e ((hmem e).mp he).1) hsorted
    exact ⟨hnormal, fun e he => (hbounds e he).1, fun x => (hcovers x).trans (hcov x)⟩

/-! ### Blocks -/

structure IsCut (blockSize : Int) (blocks : List Extent) : Prop where
  valid : ∀ b ∈ blocks, Valid b
  size : ∀ b ∈ blocks, b.length ≤ blockSize
  apart : blocks.Pairwise fun a b => a.offset + a.length ≤ b.offset

theorem no_blocks {last off : Int} (h : last ≤ off) :
    IsCut blockSize [] ∧ (∀ b ∈ ([] : List Extent), off ≤ b.offset ∧ b.offset + b.length ≤ last) ∧
      ∀ x, Covers [] x ↔ off ≤ x ∧ x < last := by
  refine ⟨⟨?_, ?_, List.Pairwise.nil⟩, ?_, ?_⟩
  · exact fun b hb => absurd hb List.not_mem_nil
  · exact fun b hb => absurd hb List.not_mem_nil
  · exact fun b hb => absurd hb List.not_mem_nil
  · intro x
    refine iff_of_false (covers_nil x) ?_
    omega

theorem blocksFrom_spec {last : Int} (hsize : 0 < blockSize) {fuel : Nat} {off : Int} (hoff : 0 ≤ off)
    (hfuel : (last - off).toNat ≤ fuel) :
    IsCut blockSize (blocksFrom blockSize last fuel off) ∧
      (∀ b ∈ blocksFrom blockSize last fuel off, off ≤ b.offset ∧ b.offset + b.length ≤ last) ∧
      ∀ x, Covers (blocksFrom blockSize last fuel off) x ↔ off ≤ x ∧ x < last := by
  induction fuel generalizing off with
  | zero => exact no_blocks (by omega)
  | succ fuel ih =>
    rw [blocksFrom]
    by_cases hlt : off < last
    · rw [if_pos hlt]
      generalize hlen : min (last - off) blockSize = len
      have hpos : 0 < len ∧ len ≤ blockSize ∧ off + len ≤ last := by omega
      obtain ⟨hcut, hbounds, hcovers⟩ := ih (show 0 ≤ off + len by omega) (by omega)
      have hfirst : Valid ⟨off, len⟩ := ⟨hpos.1, hoff⟩
      refine ⟨⟨?_, ?_, ?_⟩, ?_, ?_⟩
      · exact List.forall_mem_cons.mpr ⟨hfirst, hcut.valid⟩
      · exact List.forall_mem_cons.mpr ⟨hpos.2.1, hcut.size⟩
      · exact List.pairwise_cons.mpr ⟨fun b hb => (hbounds b hb).1, hcut.apart⟩
      · refine List.forall_mem_cons.mpr ⟨⟨Int.le_refl off, hpos.2.2⟩, ?_⟩
        intro b hb
        have h := hbounds b hb
        omega
      · intro x
        rw [covers_cons, hcovers]
        unfold Holds
        simp only [hfirst, true_and]
        omega
    · rw [if_neg hlt]
      exact no_blocks (Int.not_lt.mp hlt)

theorem blocks_spec (hsize : 0 < blockSize) (hnormal : IsNormal extents) (hbounded : ∀ e ∈ extents, Bounded e) :
    let blocks := extents.flatMap fun e => blocksFrom blockSize (stop e) (stop e - e.offset).toNat e.offset
    IsCut blockSize blocks ∧ ∀ x, Covers blocks x ↔ Covers extents x := by
  have hone : ∀ e ∈ extents, IsCut blockSize (blocksFrom blockSize (stop e) (stop e - e.offset).toNat e.offset) ∧ _ :=
    fun e he => blocksFrom_spec hsize (hnormal.valid e he).2 (Nat.le_refl _)
  have hstop : ∀ e ∈ extents, stop e = e.offset + e.length :=
    fun e he => stop_of_bounded (hnormal.valid e he) (hbounded e he)
  refine ⟨⟨?_, ?_, ?_⟩, ?_⟩
  · intro b hb
    obtain ⟨e, he, hb⟩ := List.mem_flatMap.mp hb
    exact (hone e he).1.valid b hb
  · intro b hb
    obtain ⟨e, he, hb⟩ := List.mem_flatMap.mp hb
    exact (hone e he).1.size b hb
  · rw [List.pairwise_flatMap]
    refine ⟨fun e he => (hone e he).1.apart, ?_⟩
    -- Two extents have a gap between them, and their blocks stay inside them.
    refine hnormal.gaps.imp_of_mem ?_
    intro a b ha hb hgap x hx y hy
    have hx := ((hone a ha).2.1 x hx).2
    have hy := ((hone b hb).2.1 y hy).1
    rw [hstop a ha] at hx
    omega
  · intro x
    constructor
    · rintro ⟨b, hb, hx⟩
      obtain ⟨e, he, hb⟩ := List.mem_flatMap.mp hb
      have hin := ((hone e he).2.2 x).mp ⟨b, hb, hx⟩
      rw [hstop e he] at hin
      exact ⟨e, he, hnormal.valid e he, hin⟩
    · rintro ⟨e, he, -, hx⟩
      rw [← hstop e he] at hx
      obtain ⟨b, hb, hx⟩ := ((hone e he).2.2 x).mpr hx
      exact ⟨b, List.mem_flatMap.mpr ⟨e, he, hb⟩, hx⟩

/-! ### Whole blocks -/

def widen (blockSize : Int) (e : Extent) : Extent :=
  let start := e.offset / blockSize * blockSize
  ⟨start, (e.offset + e.length + blockSize - 1) / blockSize * blockSize - start⟩

theorem align_eq (hsize : 0 < blockSize) (hv : Valid e) (hb : Bounded e) :
    align blockSize e = if e.offset + e.length + blockSize ≤ maxI64 then .ok (widen blockSize e)
      else .error "attempt to add with overflow" := by
  have hfits : fitsI64 (e.offset + e.length + blockSize) = decide (e.offset + e.length + blockSize ≤ maxI64) := by
    unfold fitsI64 maxI64
    rw [decide_eq_decide]
    obtain ⟨hlen, hoff⟩ := hv
    omega
  rw [align, add, stop_of_bounded hv hb, hfits]
  by_cases hle : e.offset + e.length + blockSize ≤ maxI64
  · rw [if_pos hle, decide_eq_true hle]
    rfl
  · rw [if_neg hle, decide_eq_false hle]
    rfl

theorem meets_iff (hsize : 0 < blockSize) (hv : Valid e) (k : Int) :
    (∃ y, Holds e y ∧ k = y / blockSize) ↔
      e.offset / blockSize ≤ k ∧ k ≤ (e.offset + e.length - 1) / blockSize := by
  obtain ⟨hlen, hoff⟩ := hv
  constructor
  · rintro ⟨y, ⟨-, hle, hlt⟩, rfl⟩
    exact ⟨Int.ediv_le_ediv hsize hle, Int.ediv_le_ediv hsize (by omega)⟩
  · rintro ⟨hle, hge⟩
    by_cases heq : k = e.offset / blockSize
    · exact ⟨e.offset, ⟨⟨hlen, hoff⟩, Int.le_refl _, by omega⟩, heq⟩
    · have hafter : e.offset < k * blockSize := (Int.ediv_lt_iff_lt_mul hsize).mp (by omega)
      have hbefore : k * blockSize ≤ e.offset + e.length - 1 := (Int.le_ediv_iff_mul_le hsize).mp hge
      refine ⟨k * blockSize, ⟨⟨hlen, hoff⟩, by omega, by omega⟩, ?_⟩
      rw [Int.mul_ediv_cancel k (Int.ne_of_gt hsize)]

theorem widen_spec (hsize : 0 < blockSize) (hv : Valid e) (hfits : e.offset + e.length + blockSize ≤ maxI64) :
    Valid (widen blockSize e) ∧ Bounded (widen blockSize e) ∧
      ∀ x, Holds (widen blockSize e) x ↔ ∃ y, Holds e y ∧ x / blockSize = y / blockSize := by
  have hne : blockSize ≠ 0 := Int.ne_of_gt hsize
  have hlast : (e.offset + e.length + blockSize - 1) / blockSize = (e.offset + e.length - 1) / blockSize + 1 := by
    have hsum : e.offset + e.length + blockSize - 1 = e.offset + e.length - 1 + 1 * blockSize := by omega
    rw [hsum, Int.add_mul_ediv_right _ _ hne]
  have hle : e.offset / blockSize ≤ (e.offset + e.length - 1) / blockSize := by
    apply Int.ediv_le_ediv hsize
    have hlen := hv.1
    omega
  have hend := Int.ediv_mul_le (e.offset + e.length + blockSize - 1) hne
  have hstart : 0 ≤ e.offset / blockSize * blockSize :=
    Int.mul_nonneg (Int.ediv_nonneg hv.2 (Int.le_of_lt hsize)) (Int.le_of_lt hsize)
  have hpos : e.offset / blockSize * blockSize < ((e.offset + e.length - 1) / blockSize + 1) * blockSize :=
    Int.mul_lt_mul_of_pos_right (by omega) hsize
  rw [hlast] at hend
  have hvalid : Valid (widen blockSize e) := by
    unfold Valid widen
    rw [hlast]
    dsimp only
    omega
  refine ⟨hvalid, ?_, ?_⟩
  · unfold Bounded widen
    rw [hlast]
    dsimp only
    omega
  · intro x
    have hlow := Int.le_ediv_iff_mul_le (a := e.offset / blockSize) (b := x) hsize
    have hhigh := Int.ediv_lt_iff_lt_mul (a := x) (b := (e.offset + e.length - 1) / blockSize + 1) hsize
    rw [meets_iff hsize hv]
    unfold Holds
    simp only [hvalid, true_and]
    unfold widen
    rw [hlast]
    dsimp only
    omega

theorem mapM_align (hsize : 0 < blockSize) (hvalid : ∀ e ∈ extents, Valid e)
    (hfits : ∀ e ∈ extents, e.offset + e.length + blockSize ≤ maxI64) :
    extents.mapM (align blockSize) = .ok (extents.map (widen blockSize)) := by
  have hone : ∀ e ∈ extents, align blockSize (id e) = .ok (widen blockSize e) := by
    intro e he
    have hbounded : Bounded e := by
      have hle := hfits e he
      unfold Bounded
      omega
    rw [id, align_eq hsize (hvalid e he) hbounded, if_pos (hfits e he)]
  have hall := mapM_map_eq_ok hone
  rwa [List.map_id] at hall

theorem fits_of_mapM_align (hsize : 0 < blockSize) {aligned : List Extent} (hvalid : ∀ e ∈ extents, Valid e)
    (hbounded : ∀ e ∈ extents, Bounded e) (h : extents.mapM (align blockSize) = .ok aligned) :
    ∀ e ∈ extents, e.offset + e.length + blockSize ≤ maxI64 := by
  intro e he
  have hmem : align blockSize e ∈ aligned.map .ok := map_eq_of_mapM h ▸ List.mem_map_of_mem he
  obtain ⟨a, -, ha⟩ := List.mem_map.mp hmem
  rw [align_eq hsize (hvalid e he) (hbounded e he)] at ha
  by_contra hlarge
  rw [if_neg hlarge] at ha
  cases ha

theorem covers_widen (hsize : 0 < blockSize) (hvalid : ∀ e ∈ extents, Valid e)
    (hfits : ∀ e ∈ extents, e.offset + e.length + blockSize ≤ maxI64) (x : Int) :
    Covers (extents.map (widen blockSize)) x ↔ ∃ y, Covers extents y ∧ x / blockSize = y / blockSize := by
  constructor
  · rintro ⟨a, ha, hx⟩
    obtain ⟨e, he, rfl⟩ := List.mem_map.mp ha
    obtain ⟨y, hy, hblock⟩ := ((widen_spec hsize (hvalid e he) (hfits e he)).2.2 x).mp hx
    exact ⟨y, ⟨e, he, hy⟩, hblock⟩
  · rintro ⟨y, ⟨e, he, hy⟩, hblock⟩
    exact ⟨widen blockSize e, List.mem_map_of_mem he,
      ((widen_spec hsize (hvalid e he) (hfits e he)).2.2 x).mpr ⟨y, hy, hblock⟩⟩

/-! ### All three functions -/

/-- What the three functions are for, on a list of extents and a block size. -/
structure Normalises (extents : List Extent) (blockSize : Int) : Prop where
  merged : IsNormal (mergeExtents extents) ∧ ∀ x, Covers (mergeExtents extents) x ↔ Covers extents x
  blocks : blockSize ≤ maxBlockSize → ∃ blocks, extentsToBlocks extents blockSize = .ok blocks ∧
    IsCut blockSize blocks ∧ ∀ x, Covers blocks x ↔ Covers extents x
  -- The least cover by blocks has the bytes whose block has a byte of an extent.
  aligned : ∃ aligned, alignExtentsToBlocks extents blockSize = .ok aligned ∧ IsNormal aligned ∧
    ∀ x, Covers aligned x ↔ ∃ y, Covers extents y ∧ x / blockSize = y / blockSize

theorem aligned_of_fits (hsize : 0 < blockSize)
    (hfits : ∀ e ∈ extents, Valid e → e.offset + e.length + blockSize ≤ maxI64) :
    ∃ aligned, alignExtentsToBlocks extents blockSize = .ok aligned ∧ IsNormal aligned ∧
      ∀ x, Covers aligned x ↔ ∃ y, Covers extents y ∧ x / blockSize = y / blockSize := by
  have hkept : ∀ e ∈ extents.filter (Valid ·), Valid e ∧ e.offset + e.length + blockSize ≤ maxI64 := by
    intro e he
    obtain ⟨hmem, hv⟩ := List.mem_filter.mp he
    have hv := of_decide_eq_true hv
    exact ⟨hv, hfits e hmem hv⟩
  have hvalid := fun e he => (hkept e he).1
  have hfits' := fun e he => (hkept e he).2
  have hbounded : ∀ a ∈ (extents.filter (Valid ·)).map (widen blockSize), Bounded a := by
    intro a ha
    obtain ⟨e, he, rfl⟩ := List.mem_map.mp ha
    exact (widen_spec hsize (hvalid e he) (hfits' e he)).2.1
  obtain ⟨hnormal, -, hcovers⟩ := mergeExtents_spec hbounded
  refine ⟨_, ?_, hnormal, ?_⟩
  · rw [alignExtentsToBlocks, if_neg (Int.not_le.mpr hsize), mapM_align hsize hvalid hfits']
    rfl
  · intro x
    rw [hcovers, covers_widen hsize hvalid hfits']
    simp only [covers_filter]

/-- The three functions do what they are for exactly if no sum of an end and the block size overflows. -/
theorem normalises_iff (extents : List Extent) (blockSize : Int) (hsize : 0 < blockSize)
    (hbounded : ∀ e ∈ extents, e.offset + e.length ≤ maxI64) :
    Normalises extents blockSize ↔ ∀ e ∈ extents, Valid e → e.offset + e.length + blockSize ≤ maxI64 := by
  constructor
  · intro h e he hv
    obtain ⟨aligned, hok, -⟩ := h.aligned
    rw [alignExtentsToBlocks, if_neg (Int.not_le.mpr hsize)] at hok
    obtain ⟨widened, hmap, -⟩ := bind_eq_ok.mp hok
    refine fits_of_mapM_align hsize ?_ ?_ hmap e (List.mem_filter.mpr ⟨he, decide_eq_true hv⟩)
    · exact fun a ha => of_decide_eq_true (List.mem_filter.mp ha).2
    · exact fun a ha => hbounded a (List.mem_of_mem_filter ha)
  · intro hfits
    obtain ⟨hnormal, hbounds, hcovers⟩ := mergeExtents_spec hbounded
    refine ⟨⟨hnormal, hcovers⟩, ?_, aligned_of_fits hsize hfits⟩
    intro hmax
    obtain ⟨hcut, hsame⟩ := blocks_spec hsize hnormal hbounds
    refine ⟨_, ?_, hcut, fun x => (hsame x).trans (hcovers x)⟩
    rw [extentsToBlocks, if_neg (Int.not_le.mpr hsize), if_neg (Int.not_lt.mpr hmax)]

/-- Extents out of order that overlap and meet two blocks. -/
theorem three_extents_normalise : Normalises [⟨4090, 4⟩, ⟨0, 10⟩, ⟨5, 5000⟩] 4096 :=
  (normalises_iff _ _ (by decide) (by decide)).mpr (by decide)

/-- The last byte before the largest number: adding the block size overflows. -/
theorem last_byte_overflows :
    alignExtentsToBlocks [⟨9223372036854775806, 1⟩] 4096 = .error "attempt to add with overflow" := by
  decide

/-! ### Equal bytes -/

section Unique

variable {a b : Extent} {l m : List Extent} {x : Int}

theorem IsNormal.tail (h : IsNormal (a :: l)) : IsNormal l :=
  ⟨(List.forall_mem_cons.mp h.valid).2, (List.pairwise_cons.mp h.gaps).2⟩

theorem IsNormal.gap (h : IsNormal (a :: l)) (hx : Covers l x) : a.offset + a.length < x := by
  obtain ⟨e, he, hx⟩ := hx
  exact lt_of_lt_of_le ((List.pairwise_cons.mp h.gaps).1 e he) hx.2.1

theorem IsNormal.covers_tail (h : IsNormal (a :: l)) :
    Covers l x ↔ Covers (a :: l) x ∧ a.offset + a.length < x := by
  rw [covers_cons]
  constructor
  · exact fun hx => ⟨.inr hx, h.gap hx⟩
  · rintro ⟨hx | hx, hlt⟩
    · have hin := hx.2
      omega
    · exact hx

theorem IsNormal.head_le (ha : IsNormal (a :: l)) (hb : IsNormal (b :: m))
    (h : ∀ x, Covers (b :: m) x → Covers (a :: l) x) :
    a.offset ≤ b.offset ∧ (a.offset = b.offset → b.length ≤ a.length) := by
  have va := ha.valid a List.mem_cons_self
  have vb := hb.valid b List.mem_cons_self
  have hlen := va.1
  have hcover : ∀ x, b.offset ≤ x → x < b.offset + b.length →
      a.offset ≤ x ∧ x < a.offset + a.length ∨ a.offset + a.length < x := by
    intro x hle hlt
    rcases covers_cons.mp (h x (covers_cons.mpr (.inl ⟨vb, hle, hlt⟩))) with hx | hx
    · exact .inl hx.2
    · exact .inr (ha.gap hx)
  constructor
  · have hfirst := hcover b.offset (Int.le_refl _) (Int.lt_add_of_pos_right _ vb.1)
    omega
  · intro hstart
    by_contra hlonger
    -- The byte at the end of `a` would be one of `b` and in the gap behind `a`.
    have hend := hcover (a.offset + a.length) (by omega) (by omega)
    omega

theorem IsNormal.eq_of_covers (hl : IsNormal l) (hm : IsNormal m) (h : ∀ x, Covers l x ↔ Covers m x) : l = m := by
  have hfirst : ∀ {a : Extent} {l : List Extent}, IsNormal (a :: l) → Covers (a :: l) a.offset := fun {a l} ha =>
    have va := ha.valid a List.mem_cons_self
    covers_cons.mpr (.inl ⟨va, Int.le_refl _, Int.lt_add_of_pos_right _ va.1⟩)
  induction l generalizing m with
  | nil =>
    cases m with
    | nil => rfl
    | cons b m => exact absurd ((h b.offset).mpr (hfirst hm)) (covers_nil _)
  | cons a l ih =>
    cases m with
    | nil => exact absurd ((h a.offset).mp (hfirst hl)) (covers_nil _)
    | cons b m =>
      obtain ⟨hle, hlen⟩ := hl.head_le hm fun x => (h x).mpr
      obtain ⟨hge, hlen'⟩ := hm.head_le hl fun x => (h x).mp
      have hstart := Int.le_antisymm hle hge
      obtain ⟨offset, length⟩ := a
      obtain rfl : b = ⟨offset, length⟩ := by
        cases b
        exact congrArg₂ Extent.mk hstart.symm (Int.le_antisymm (hlen hstart) (hlen' hstart.symm))
      rw [ih hl.tail hm.tail fun x => by rw [hl.covers_tail, hm.covers_tail, h]]

end Unique

/-- Two lists are merged to the same extents exactly if they have the same bytes. So neither the order nor the overlaps
of the extents matter, and merging what is merged changes nothing. -/
theorem merged_alike_iff_same_bytes (a b : List Extent) (ha : ∀ e ∈ a, e.offset + e.length ≤ maxI64)
    (hb : ∀ e ∈ b, e.offset + e.length ≤ maxI64) :
    mergeExtents a = mergeExtents b ↔ ∀ x, Covers a x ↔ Covers b x := by
  obtain ⟨hnormal, -, hcovers⟩ := mergeExtents_spec ha
  obtain ⟨hnormal', -, hcovers'⟩ := mergeExtents_spec hb
  constructor
  · intro heq x
    rw [← hcovers, heq, hcovers']
  · exact fun h => hnormal.eq_of_covers hnormal' fun x => (hcovers x).trans ((h x).trans (hcovers' x).symm)

theorem halves_merged_alike : mergeExtents [⟨5, 5⟩, ⟨0, 7⟩] = mergeExtents [⟨0, 10⟩] := by
  refine (merged_alike_iff_same_bytes _ _ (by decide) (by decide)).mpr fun x => ?_
  simp only [covers_cons, covers_nil, or_false, Holds, Valid]
  omega

end Kcore.Export.Normal
