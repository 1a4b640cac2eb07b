import Mathlib.Data.Nat.Notation
import Mathlib.Logic.Basic

/-!
# Disks

A disk as the checks of commissioning see it: the end of it can be sought, ranges of bytes can be written and read, and
the writes can be flushed. What a disk really holds is its content. Reads return the bytes of the content or fail, and a
write changes no byte outside its range, but it may fail or store something else. A faithful disk does neither.
-/

namespace Kcore.DiskVerify

def slice (content : Nat → UInt8) (offset count : Nat) : List UInt8 :=
  (List.range count).map fun i => content (offset + i)

@[simp] theorem length_slice (content : Nat → UInt8) (offset count : Nat) :
    (slice content offset count).length = count := by
  simp [slice]

theorem slice_eq_slice {content content' : Nat → UInt8} {offset count : Nat} :
    slice content offset count = slice content' offset count ↔
      ∀ i, offset ≤ i → i < offset + count → content i = content' i := by
  unfold slice
  rw [List.map_inj_left]
  constructor
  · intro h i hle hlt
    have hi := h (i - offset) (List.mem_range.mpr (by omega))
    rwa [Nat.add_sub_cancel' hle] at hi
  · intro h i hi
    exact h _ (Nat.le_add_right ..) (Nat.add_lt_add_left (List.mem_range.mp hi) _)

/-- A disk with states of some type. Seeking is part of reading and writing. -/
structure Disk (σ : Type) where
  size : Nat
  content : σ → Nat → UInt8
  seekEnd : σ → Option Nat
  write : Nat → List UInt8 → σ → Bool × σ
  read : Nat → Nat → σ → Option (List UInt8) × σ
  flush : σ → Bool × σ
  seekEnd_eq : ∀ {s n}, seekEnd s = some n → n = size
  read_eq : ∀ {offset count s bytes}, (read offset count s).1 = some bytes → bytes = slice (content s) offset count
  content_read : ∀ offset count s, content (read offset count s).2 = content s
  content_write : ∀ offset bytes s i, i < offset ∨ offset + bytes.length ≤ i →
    content (write offset bytes s).2 i = content s i
  content_flush : ∀ s, content (flush s).2 = content s

namespace Disk

variable {σ : Type}

structure Faithful (disk : Disk σ) : Prop where
  seekEnd : ∀ s, disk.seekEnd s = some disk.size
  write : ∀ offset bytes s, offset + bytes.length ≤ disk.size →
    (disk.write offset bytes s).1 = true ∧
      slice (disk.content (disk.write offset bytes s).2) offset bytes.length = bytes
  read : ∀ offset count s, offset + count ≤ disk.size → (disk.read offset count s).1.isSome = true
  flush : ∀ s, (disk.flush s).1 = true

theorem Faithful.read_eq {disk : Disk σ} (h : disk.Faithful) {offset count : Nat} (hinside : offset + count ≤ disk.size)
    (s : σ) : (disk.read offset count s).1 = some (slice (disk.content s) offset count) := by
  obtain ⟨bytes, hbytes⟩ := Option.isSome_iff_exists.mp (h.read offset count s hinside)
  rw [hbytes, disk.read_eq hbytes]

def overlay (offset : Nat) (bytes : List UInt8) (content : Nat → UInt8) : Nat → UInt8 := fun i =>
  if offset ≤ i then (bytes[i - offset]?).getD (content i) else content i

theorem overlay_outside {offset : Nat} {bytes : List UInt8} {i : Nat} (h : i < offset ∨ offset + bytes.length ≤ i)
    (content : Nat → UInt8) : overlay offset bytes content i = content i := by
  unfold overlay
  split
  · rw [List.getElem?_eq_none (by omega)]
    rfl
  · rfl

theorem slice_overlay (offset : Nat) (bytes : List UInt8) (content : Nat → UInt8) :
    slice (overlay offset bytes content) offset bytes.length = bytes := by
  refine List.ext_getElem (length_slice ..) ?_
  intro i hi hi'
  simp [slice, overlay, hi']

def memory (size : Nat) : Disk (Nat → UInt8) where
  size := size
  content s := s
  seekEnd _ := some size
  write offset bytes s := if offset + bytes.length ≤ size then (true, overlay offset bytes s) else (false, s)
  read offset count s := if offset + count ≤ size then (some (slice s offset count), s) else (none, s)
  flush s := (true, s)
  seekEnd_eq h := (Option.some.inj h).symm
  read_eq {offset count s bytes} h := by
    split at h
    · exact (Option.some.inj h).symm
    · exact nomatch h
  content_read offset count s := by
    split <;> rfl
  content_write offset bytes s i h := by
    split
    · exact overlay_outside h s
    · rfl
  content_flush _ := rfl

theorem memory_faithful (size : Nat) : (memory size).Faithful where
  seekEnd _ := rfl
  write offset bytes s h := by
    simp only [memory] at h ⊢
    rw [if_pos h]
    exact ⟨rfl, slice_overlay offset bytes s⟩
  read offset count s h := by
    simp only [memory] at h ⊢
    rw [if_pos h]
    rfl
  flush _ := rfl

end Disk

end Kcore.DiskVerify
