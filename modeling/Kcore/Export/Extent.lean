import Kcore.Json
import Kcore.Lib.Patch

/-!
# Extents

How the agent writes a block or a run of zeros that was read from an extent to another device. A device is the list of
its bytes. If the blocks of some extents of a newer device are written over an older one, the result has the bytes of
the newer one in what the extents cover, and those of the older one elsewhere.
-/

namespace Kcore.Export

open Patch

abbrev Bytes := List UInt8

/-! ### Extents -/

/-- `Extent`; both fields are `i64`. -/
structure Extent where
  offset : Int
  length : Int
  deriving DecidableEq

inductive TransferUnit where
  | data (offset length : Int)
  | zeroRun (offset length : Int)

/-! ### Writing -/

/-- `write_block_at`. A write behind the end of a file leaves a hole of zeros. -/
def writeBlockAt (device : Bytes) (offset : Int) (data : Bytes) : Except String Bytes :=
  if offset < 0 then .error "offset must be >= 0"
  else .ok (overwrite (device ++ List.replicate (offset.toNat - device.length) 0) offset.toNat data)

/-- The loop that writes a run of zeros, `chunk` bytes at a time. -/
def writeZeros (offset length chunk : Int) : Nat → Int → Bytes → Except String Bytes
  | 0, _, device => .ok device
  | fuel + 1, written, device =>
    if written < length then do
      let device ← writeBlockAt device (offset + written) (List.replicate (min (length - written) chunk).toNat 0)
      writeZeros offset length chunk fuel (written + min (length - written) chunk) device
    else .ok device

/-- `fallocate --punch-hole`, if it works: the range reads as zeros, and the size is kept. -/
def punchHole (device : Bytes) (offset length : Int) : Bytes :=
  overwrite device offset.toNat (List.replicate (min (offset + length).toNat device.length - offset.toNat) 0)

/-- `write_extent_unit`. `punched` says that holes are to be punched and that it works. -/
def writeExtentUnit (punched : Bool) (device : Bytes) : TransferUnit × Option Bytes → Except String Bytes
  | (.data _ _, none) => .error "data block missing payload"
  | (.data offset length, some bytes) =>
    if bytes.length ≠ length then .error "data length does not match extent length"
    else writeBlockAt device offset bytes
  | (.zeroRun offset length, _) =>
    if length < 0 then .error "capacity overflow"
    else writeZeros offset length (min 1048576 length) length.toNat 0
      (if punched then punchHole device offset length else device)

/-! ### What extents cover -/

def Extent.Covers (e : Extent) (i : Nat) : Prop := e.offset ≤ i ∧ (i : Int) < e.offset + e.length

instance (e : Extent) (i : Nat) : Decidable (e.Covers i) :=
  inferInstanceAs (Decidable (e.offset ≤ i ∧ (i : Int) < e.offset + e.length))

structure Extent.Within (size : Nat) (e : Extent) : Prop where
  start : 0 ≤ e.offset
  positive : 0 < e.length
  stop : e.offset + e.length ≤ size

def Extent.bytes (e : Extent) (device : Bytes) : Bytes := slice device e.offset.toNat e.length.toNat

section Write

variable {newer older device : Bytes} {covered : Nat → Prop}

theorem writeBlockAt_inside {offset : Int} (hstart : 0 ≤ offset) (hinside : offset.toNat ≤ device.length)
    (data : Bytes) :
    writeBlockAt device offset data = .ok (overwrite device offset.toNat data) := by
  unfold writeBlockAt
  rw [if_neg (by omega), Nat.sub_eq_zero_of_le hinside, List.replicate_zero, List.append_nil]

theorem mixed_write {e : Extent} (h : Mixed covered newer older device) (hlength : newer.length = older.length)
    (he : e.Within newer.length) : ∃ result, writeBlockAt device e.offset (e.bytes newer) = .ok result ∧
      Mixed (fun i => covered i ∨ e.Covers i) newer older result := by
  have hstart := he.start
  have hpositive := he.positive
  have hstop := he.stop
  have hdevice := h.length
  refine ⟨_, writeBlockAt_inside hstart (by omega) _, ?_⟩
  refine (h.overwrite hlength e.offset.toNat e.length.toNat (by omega)).congr fun i => ?_
  refine or_congr_right ?_
  unfold Extent.Covers
  omega

end Write

end Kcore.Export
