import Mathlib.Data.List.Sort
import Mathlib.Data.Nat.Notation

/-!
# The regions of a disk check

Commissioning writes a pattern to regions of a disk, cuts the power and reads the regions again. `plan` picks the
regions from the size of the disk, the nonce and the serial number alone, so that both phases agree on them: the first
region, the last one, one in the middle, and others by the hash. The hash is a parameter, and sizes are natural numbers:
all values of the computation stay below the size of the disk or four times the length of a region, which is at most 64
MiB.
-/

namespace Kcore.DiskVerify

def align : Nat := 4096

def alignDown (v : Nat) : Nat := v - v % align

private theorem alignDown_le (v : Nat) : alignDown v ≤ v := Nat.sub_le ..

private theorem lt_alignDown (v : Nat) : v < alignDown v + align := by
  have hmod : v % align < align := Nat.mod_lt _ (by decide)
  unfold alignDown
  omega

private theorem align_dvd_alignDown (v : Nat) : align ∣ alignDown v := Nat.dvd_sub_mod v

def leBytes : Nat → Nat → List UInt8
  | 0, _ => []
  | count + 1, n => UInt8.ofNat n :: leBytes count (n / 256)

def fromLeBytes (l : List UInt8) : Nat := l.foldr (fun b n => b.toNat + 256 * n) 0

def utf8 (s : String) : List UInt8 := s.toUTF8.toList

inductive PlanError where
  | regionLength
  | noRegions
  | tooSmall (size need : Nat)

def PlanError.text : PlanError → String
  | regionLength => s!"region length must be a multiple of {align} bytes"
  | noRegions => "at least one region is required"
  | tooSmall size need => s!"device is too small: {size} bytes, need at least {need}"

section Plan

variable (sha256 : List UInt8 → Vector UInt8 32) (size len : Nat) (nonce serial : String)

def candidate (counter : Nat) : Nat :=
  let digest := sha256 (utf8 "plan" ++ utf8 nonce ++ [0] ++ utf8 serial ++ leBytes 8 counter)
  alignDown (fromLeBytes (digest.toList.take 8) % (size - len + 1))

def overlaps (offsets : List Nat) (candidate : Nat) : Bool :=
  offsets.any fun o => candidate < o + len && o < candidate + len

def pick (count : Nat) : Nat → Nat → List Nat → List Nat
  | 0, _, offsets => offsets
  | rounds + 1, counter, offsets =>
    if offsets.length < count then
      let c := candidate sha256 size len nonce serial counter
      pick count rounds (counter + 1) (if overlaps len offsets c then offsets else offsets ++ [c])
    else offsets

def fixedOffsets (count : Nat) : List Nat :=
  [0, alignDown (size - len)] ++ if 3 ≤ count then [alignDown (size / 2 - len / 2)] else []

def plan (count : Nat) : Except PlanError (List Nat) :=
  if ¬(align ≤ len ∧ len % align = 0) then .error .regionLength
  else if count < 1 then .error .noRegions
  else if size < len * 4 then .error (.tooSmall size (len * 4))
  else
    let count := min count (max (size / (len * 2)) 1)
    let offsets := pick sha256 size len nonce serial count 100000 0 (fixedOffsets size len count)
    .ok ((offsets.take count).insertionSort (· ≤ ·))

end Plan

/-! ### Regions -/

def Apart (len a b : Nat) : Prop := a + len ≤ b ∨ b + len ≤ a

/-- Regions that may be written one after the other: aligned, inside the disk, and pairwise apart. -/
structure Placed (size len : Nat) (offsets : List Nat) : Prop where
  aligned : ∀ o ∈ offsets, align ∣ o
  inside : ∀ o ∈ offsets, o + len ≤ size
  apart : offsets.Pairwise (Apart len)

variable {size len : Nat} {offsets : List Nat}

private theorem Placed.sublist {offsets' : List Nat} (h : Placed size len offsets) (hsub : offsets'.Sublist offsets) :
    Placed size len offsets' where
  aligned o ho := h.aligned o (hsub.mem ho)
  inside o ho := h.inside o (hsub.mem ho)
  apart := h.apart.sublist hsub

private theorem Placed.perm {offsets' : List Nat} (h : Placed size len offsets) (hperm : offsets'.Perm offsets) :
    Placed size len offsets' where
  aligned o ho := h.aligned o (hperm.mem_iff.mp ho)
  inside o ho := h.inside o (hperm.mem_iff.mp ho)
  apart := (hperm.pairwise_iff fun hab => hab.symm).mpr h.apart

private theorem overlaps_eq_false {c : Nat} : overlaps len offsets c = false ↔ ∀ o ∈ offsets, Apart len o c := by
  simp only [overlaps, List.any_eq_false, Bool.and_eq_true, decide_eq_true_eq, Apart, not_and_or, Nat.not_lt]

private theorem Placed.concat (h : Placed size len offsets) {c : Nat} (haligned : align ∣ c) (hinside : c + len ≤ size)
    (hfree : overlaps len offsets c = false) : Placed size len (offsets ++ [c]) where
  aligned := List.forall_mem_append.mpr ⟨h.aligned, List.forall_mem_singleton.mpr haligned⟩
  inside := List.forall_mem_append.mpr ⟨h.inside, List.forall_mem_singleton.mpr hinside⟩
  apart := by
    rw [List.pairwise_append]
    refine ⟨h.apart, List.pairwise_singleton .., ?_⟩
    intro o ho c' hc'
    rw [List.mem_singleton.mp hc']
    exact overlaps_eq_false.mp hfree o ho

/-- The fixed regions do not meet: the third one is only taken on a disk of six regions. -/
private theorem placed_fixed (hlen : align ≤ len) (hsize : len * 4 ≤ size) {count : Nat}
    (hcount : count ≤ max (size / (len * 2)) 1) : Placed size len (fixedOffsets size len count) := by
  have hlast := alignDown_le (size - len)
  have hlast' := lt_alignDown (size - len)
  have hpos : 4096 ≤ len := hlen
  unfold align at hlast'
  by_cases h3 : 3 ≤ count
  · have hmid := alignDown_le (size / 2 - len / 2)
    have hmid' := lt_alignDown (size / 2 - len / 2)
    have hsix : len * 6 ≤ size := by
      have hle : 3 ≤ size / (len * 2) := by omega
      have := (Nat.le_div_iff_mul_le (by omega)).mp hle
      omega
    unfold align at hmid'
    unfold fixedOffsets
    rw [if_pos h3]
    refine ⟨?_, ?_, ?_⟩
    · simp [align_dvd_alignDown]
    · simp only [List.cons_append, List.nil_append, List.forall_mem_cons, List.not_mem_nil, false_imp_iff, implies_true,
        and_true]
      omega
    · simp only [List.cons_append, List.nil_append, List.pairwise_cons, List.forall_mem_cons, List.not_mem_nil,
        false_imp_iff, implies_true, and_true, List.Pairwise.nil, Apart]
      omega
  · unfold fixedOffsets
    rw [if_neg h3]
    refine ⟨?_, ?_, ?_⟩
    · simp [align_dvd_alignDown]
    · simp only [List.append_nil, List.forall_mem_cons, List.not_mem_nil, false_imp_iff, implies_true, and_true]
      omega
    · simp only [List.append_nil, List.pairwise_cons, List.forall_mem_cons, List.not_mem_nil, false_imp_iff,
        implies_true, and_true, List.Pairwise.nil, Apart]
      omega

section Pick

variable (sha256 : List UInt8 → Vector UInt8 32) (nonce serial : String)

private theorem candidate_placed (hsize : len ≤ size) (counter : Nat) :
    align ∣ candidate sha256 size len nonce serial counter ∧
      candidate sha256 size len nonce serial counter + len ≤ size := by
  refine ⟨align_dvd_alignDown _, ?_⟩
  unfold candidate
  dsimp only
  generalize fromLeBytes _ = raw
  have hle := alignDown_le (raw % (size - len + 1))
  have hlt := Nat.mod_lt raw (show size - len + 1 > 0 by omega)
  omega

private theorem pick_placed (hsize : len ≤ size) (count rounds counter : Nat) (h : Placed size len offsets) :
    Placed size len (pick sha256 size len nonce serial count rounds counter offsets) ∧
      offsets <+: pick sha256 size len nonce serial count rounds counter offsets := by
  induction rounds generalizing counter offsets with
  | zero => exact ⟨h, List.prefix_refl _⟩
  | succ rounds ih =>
    unfold pick
    split
    · dsimp only
      by_cases hfree : overlaps len offsets (candidate sha256 size len nonce serial counter) = true
      · rw [if_pos hfree]
        exact ih _ h
      · rw [if_neg hfree]
        obtain ⟨haligned, hinside⟩ := candidate_placed sha256 nonce serial hsize counter
        obtain ⟨hplaced, hstart⟩ := ih (counter + 1) (h.concat haligned hinside (Bool.eq_false_iff.mpr hfree))
        exact ⟨hplaced, (List.prefix_append _ _).trans hstart⟩
    · exact ⟨h, List.prefix_refl _⟩

/-- What the two phases rely on: the regions are aligned and inside the disk, in ascending order without common bytes,
and the ends of the disk are among them, the last one if two regions or more were asked for. -/
structure Spread (size len regions : Nat) (offsets : List Nat) : Prop where
  aligned : ∀ o ∈ offsets, align ∣ o
  inside : ∀ o ∈ offsets, o + len ≤ size
  ascending : offsets.Pairwise fun a b => a + len ≤ b
  first : 0 ∈ offsets
  last : 2 ≤ regions → alignDown (size - len) ∈ offsets

private theorem ascending_of_sorted (hlen : 0 < len) (hsorted : offsets.Pairwise (· ≤ ·))
    (hapart : offsets.Pairwise (Apart len)) : offsets.Pairwise fun a b => a + len ≤ b := by
  refine (hsorted.and hapart).imp ?_
  rintro a b ⟨hle, hab | hba⟩
  · exact hab
  · omega

theorem spread_of_plan {count : Nat} (h : plan sha256 size len nonce serial count = .ok offsets) :
    0 < len ∧ Spread size len count offsets := by
  unfold plan at h
  split_ifs at h with hlen hcount hsize
  rw [Nat.not_lt] at hcount hsize
  have hpos : 0 < len := Nat.lt_of_lt_of_le (by decide) hlen.1
  dsimp only at h
  generalize hn : min count (max (size / (len * 2)) 1) = n at h
  have hn1 : 1 ≤ n := by omega
  have hfixed : Placed size len (fixedOffsets size len n) := placed_fixed hlen.1 hsize (by omega)
  obtain ⟨hplaced, hstart⟩ := pick_placed sha256 nonce serial (show len ≤ size by omega) n 100000 0 hfixed
  generalize pick sha256 size len nonce serial n 100000 0 (fixedOffsets size len n) = picked at h hplaced hstart
  cases h
  have hperm : ((picked.take n).insertionSort (· ≤ ·)).Perm (picked.take n) := List.perm_insertionSort ..
  have hsorted := (hplaced.sublist (List.take_sublist n picked)).perm hperm
  obtain ⟨more, rfl⟩ : ∃ more, picked = 0 :: alignDown (size - len) :: more := by
    obtain ⟨rest, hrest⟩ := hstart
    exact ⟨_, hrest.symm⟩
  refine ⟨hpos, hsorted.aligned, hsorted.inside, ?_, ?_, ?_⟩
  · exact ascending_of_sorted hpos (List.pairwise_insertionSort ..) hsorted.apart
  · rw [hperm.mem_iff]
    obtain ⟨m, rfl⟩ := Nat.exists_eq_add_of_le' hn1
    exact List.mem_cons_self
  · intro htwo
    have hroom : 2 ≤ size / (len * 2) := (Nat.le_div_iff_mul_le (by omega)).mpr (by omega)
    rw [hperm.mem_iff]
    obtain ⟨m, rfl⟩ := Nat.exists_eq_add_of_le' (show 2 ≤ n by omega)
    exact List.mem_cons_of_mem _ List.mem_cons_self

end Pick

end Kcore.DiskVerify
