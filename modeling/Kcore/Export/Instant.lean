import Kcore.Export.Extent

/-!
# Finalising an instant recovery

A guest that was started from a backup runs on an overlay over it. `FinalizeInstantDisk` copies the changes in the
overlay onto a volume that holds the backup. It copies the extents in which the top image has data, and leaves out those
in which the top image has zeros, so that the volume keeps the bytes of the backup there.
-/

namespace Kcore.Instant

open Export Patch

/-! ### The copy -/

def u64 (row : Value) (key : String) : Option Nat :=
  (row.get key).bind fun v => match v with
    | .number (.int n) => if 0 ≤ n ∧ n < 18446744073709551616 then some n.toNat else none
    | _ => none

def overlayExtents : List Value → Except String (List (Nat × Nat))
  | [] => .ok []
  | row :: rest =>
    let depth := (u64 row "depth").getD 1
    let data := (row.boolean "data").getD false
    let zero := (row.boolean "zero").getD false
    if depth ≠ 0 || !data || zero then overlayExtents rest
    else match u64 row "start" with
      | none => .error "map extent missing start"
      | some start => match u64 row "length" with
        | none => .error "map extent missing length"
        | some length => do
          let extents ← overlayExtents rest
          pure (if 0 < length then (start, length) :: extents else extents)

def castI64 (n : Nat) : Int := if n < 9223372036854775808 then n else n - 18446744073709551616

/-- What the tools say about an overlay: the rows of `qemu-img map`, and for an offset and a length what `qemu-io`
reads. -/
structure Overlay where
  map : Except String (List Value)
  read : Nat → Nat → Except String Bytes

/-- The loop of `copy_overlay` over one extent, with the volume and the number of bytes written. -/
def copyExtent (overlay : Overlay) (start length : Nat) : Nat → Nat → Bytes × Int → Except String (Bytes × Int)
  | 0, _, state => .ok state
  | fuel + 1, done, (volume, bytes) =>
    if done < length then do
      let n := min (length - done) 8388608
      let data ← overlay.read (start + done) n
      let volume ← writeExtentUnit false volume (.data (castI64 (start + done)) data.length, some data)
      copyExtent overlay start length fuel (done + n) (volume, bytes + data.length)
    else .ok (volume, bytes)

def copyExtents (overlay : Overlay) : List (Nat × Nat) → Bytes × Int → Except String (Bytes × Int)
  | [], state => .ok state
  | (start, length) :: rest, state => do
    let state ← copyExtent overlay start length length 0 state
    copyExtents overlay rest state

def copyOverlay (overlay : Overlay) (volume : Bytes) : Except String (Bytes × Int) := do
  let rows ← overlay.map
  let extents ← overlayExtents rows
  copyExtents overlay extents (volume, 0)

structure FinalizeInstantDiskResponse where
  success : Bool
  message : String
  bytesWritten : Int
  volumePath : String

/-- `finalize_instant_disk`. `device` is what the handle resolves to and `swap` what comes of the swap of the disks. -/
def finalizeInstantDisk (device : Except String String) (overlay : Overlay) (vmName : String) (swap : Except String Unit)
    (volume : Bytes) : Except String (FinalizeInstantDiskResponse × Bytes) := do
  let device ← device
  let (volume, bytes) ← copyOverlay overlay volume
  let message := match if trim vmName = "" then .ok () else swap with
    | .ok () => "volume kept"
    | .error e => "volume written; disk swap: " ++ e
  pure (⟨true, message, bytes, device⟩, volume)

/-! ### What a map says -/

structure Row where
  start : Nat
  length : Nat
  depth : Nat
  data : Bool
  zero : Bool
  deriving DecidableEq

def Row.value (r : Row) : Value :=
  .object [("start", .number (.int r.start)), ("length", .number (.int r.length)), ("depth", .number (.int r.depth)),
    ("zero", .bool r.zero), ("data", .bool r.data)]

def Row.extent (r : Row) : Extent := ⟨r.start, r.length⟩

def Tiles : Nat → List Row → Nat → Prop
  | start, [], stop => start = stop
  | start, r :: rest, stop => r.start = start ∧ Tiles (start + r.length) rest stop

/-- The map describes what the guest reads through an overlay over the backup. A row that is not of the top image, or
that has neither data nor zeros, is unallocated in the overlay: the guest reads the backup there. -/
structure TruthfulMap (rows : List Row) (backup view : Bytes) : Prop where
  tiles : Tiles 0 rows view.length
  depth : ∀ r ∈ rows, r.depth < 18446744073709551616
  zero : ∀ r ∈ rows, r.zero = true → ∀ i, r.extent.Covers i → view[i]? = some 0
  backing : ∀ r ∈ rows, r.depth ≠ 0 ∨ (r.data = false ∧ r.zero = false) → ∀ i, r.extent.Covers i → view[i]? = backup[i]?

def Row.copied (r : Row) : Bool := r.depth = 0 && r.data && !r.zero

section Tiles

variable {rows : List Row} {start stop i : Nat}

theorem Row.covers_iff {r : Row} : r.extent.Covers i ↔ r.start ≤ i ∧ i < r.start + r.length := by
  unfold Extent.Covers Row.extent
  dsimp only
  omega

theorem Tiles.bounds (h : Tiles start rows stop) :
    start ≤ stop ∧ ∀ r ∈ rows, start ≤ r.start ∧ r.start + r.length ≤ stop := by
  induction rows generalizing start with
  | nil => exact ⟨Nat.le_of_eq h, fun r hr => absurd hr List.not_mem_nil⟩
  | cons r rest ih =>
    obtain ⟨hstart, hrest⟩ := h
    obtain ⟨hle, hbounds⟩ := ih hrest
    refine ⟨by omega, List.forall_mem_cons.mpr ⟨by omega, fun s hs => ?_⟩⟩
    have hs := hbounds s hs
    omega

theorem Tiles.exists_covers (h : Tiles start rows stop) (hstart : start ≤ i) (hstop : i < stop) :
    ∃ r ∈ rows, r.extent.Covers i := by
  induction rows generalizing start with
  | nil =>
    have hend : start = stop := h
    omega
  | cons r rest ih =>
    obtain ⟨hr, hrest⟩ := h
    by_cases hi : i < start + r.length
    · exact ⟨r, List.mem_cons_self, Row.covers_iff.mpr (by omega)⟩
    · obtain ⟨s, hs, hcovers⟩ := ih hrest (by omega)
      exact ⟨s, List.mem_cons_of_mem r hs, hcovers⟩

theorem Tiles.covers_unique (h : Tiles start rows stop) {r s : Row} (hr : r ∈ rows) (hs : s ∈ rows)
    (hri : r.extent.Covers i) (hsi : s.extent.Covers i) : r = s := by
  induction rows generalizing start with
  | nil => exact absurd hr List.not_mem_nil
  | cons t rest ih =>
    obtain ⟨ht, hrest⟩ := h
    have hlater : ∀ u ∈ rest, start + t.length ≤ u.start := fun u hu => (hrest.bounds.2 u hu).1
    rw [Row.covers_iff] at hri hsi
    rcases List.mem_cons.mp hr with rfl | hr
    · rcases List.mem_cons.mp hs with rfl | hs
      · rfl
      · have hsLater := hlater s hs
        omega
    · have hrLater := hlater r hr
      rcases List.mem_cons.mp hs with rfl | hs
      · omega
      · exact ih hrest hr hs

theorem Tiles.lt_of_covers (h : Tiles 0 rows stop) {r : Row} (hr : r ∈ rows) (hi : r.extent.Covers i) : i < stop :=
  Nat.lt_of_lt_of_le (Row.covers_iff.mp hi).2 (h.bounds.2 r hr).2

end Tiles

/-! ### What is copied -/

section Copy

theorem u64_value {n : Nat} (h : n < 18446744073709551616) {row : Value} {key : String}
    (hget : row.get key = some (.number (.int n))) : u64 row key = some n := by
  have hfits : (0 : Int) ≤ n ∧ (n : Int) < 18446744073709551616 := by omega
  unfold u64
  rw [hget, Option.bind_some]
  dsimp only
  rw [if_pos hfits, Int.toNat_natCast]

def copiedExtents (rows : List Row) : List (Nat × Nat) :=
  (rows.filter fun r => r.copied && 0 < r.length).map fun r => (r.start, r.length)

theorem overlayExtents_rows (rows : List Row) (hdepth : ∀ r ∈ rows, r.depth < 18446744073709551616)
    (hinside : ∀ r ∈ rows, r.start + r.length < 18446744073709551616) :
    overlayExtents (rows.map Row.value) = .ok (copiedExtents rows) := by
  induction rows with
  | nil => rfl
  | cons r rest ih =>
    obtain ⟨hd, hdepth⟩ := List.forall_mem_cons.mp hdepth
    obtain ⟨hr, hinside⟩ := List.forall_mem_cons.mp hinside
    have hdepthValue : u64 r.value "depth" = some r.depth := u64_value hd rfl
    have hstart : u64 r.value "start" = some r.start := u64_value (by omega) rfl
    have hlength : u64 r.value "length" = some r.length := u64_value (by omega) rfl
    have hdata : r.value.boolean "data" = some r.data := rfl
    have hzero : r.value.boolean "zero" = some r.zero := rfl
    rw [List.map_cons, overlayExtents, hdepthValue, hstart, hlength, hdata, hzero, ih hdepth hinside]
    have hskip : (decide (r.depth ≠ 0) || !r.data || r.zero) = !r.copied := by
      unfold Row.copied
      by_cases hdepth : r.depth = 0 <;> simp [hdepth]
    simp only [Option.getD_some, hskip]
    by_cases hcopied : r.copied = true
    · by_cases hpositive : 0 < r.length
      · simp [hcopied, hpositive, copiedExtents, pure, Except.pure, bind, Except.bind]
      · simp [hcopied, hpositive, copiedExtents, pure, Except.pure, bind, Except.bind]
    · simp [hcopied, copiedExtents]

variable {overlay : Overlay} {backup view more : Bytes}

theorem writeExtentUnit_view (hview : view.length < 9223372036854775808) (hlength : view.length = backup.length)
    (offset n : Nat)
    (hpositive : 0 < n) (hinside : offset + n ≤ view.length) {volume : Bytes} {covered : Nat → Prop}
    (h : Mixed covered (view ++ more) (backup ++ more) volume) :
    ∃ result,
      writeExtentUnit false volume (.data (castI64 offset) (slice view offset n).length, some (slice view offset n)) =
        .ok result ∧
      Mixed (fun i => covered i ∨ (offset ≤ i ∧ i < offset + n)) (view ++ more) (backup ++ more) result := by
  have hcast : castI64 offset = offset := if_pos (by omega)
  have hsame : (view ++ more).length = (backup ++ more).length := by rw [List.length_append, List.length_append, hlength]
  have hwithin : Extent.Within (view ++ more).length ⟨offset, n⟩ := by
    rw [List.length_append]
    refine ⟨?_, ?_, ?_⟩ <;> dsimp only <;> omega
  have hbytes : Extent.bytes ⟨offset, n⟩ (view ++ more) = slice view offset n := slice_append more hinside
  obtain ⟨result, hresult, hmixed⟩ := mixed_write h hsame hwithin
  rw [hbytes] at hresult
  refine ⟨result, ?_, hmixed.congr fun i => or_congr_right ?_⟩
  · rw [hcast]
    exact (if_neg (fun hne => hne rfl)).trans hresult
  · unfold Extent.Covers
    dsimp only
    omega

theorem copyExtent_spec (hread : ∀ offset n bytes, overlay.read offset n = .ok bytes → bytes = slice view offset n)
    (hview : view.length < 9223372036854775808) (hlength : view.length = backup.length) {start length : Nat}
    (hinside : start + length ≤ view.length) (fuel done : Nat) (hfuel : length - done ≤ fuel) {state final : Bytes × Int}
    {covered : Nat → Prop} (h : Mixed covered (view ++ more) (backup ++ more) state.1)
    (hcopy : copyExtent overlay start length fuel done state = .ok final) :
    Mixed (fun i => covered i ∨ (start + done ≤ i ∧ i < start + length)) (view ++ more) (backup ++ more) final.1 := by
  induction fuel generalizing done state covered with
  | zero =>
    cases hcopy
    exact h.congr fun i => (or_iff_left (by omega)).symm
  | succ fuel ih =>
    unfold copyExtent at hcopy
    dsimp only at hcopy
    by_cases hmore : done < length
    · rw [if_pos hmore] at hcopy
      cases hdata : overlay.read (start + done) (min (length - done) 8388608) with
      | error e =>
        rw [hdata] at hcopy
        cases hcopy
      | ok data =>
        obtain rfl := hread _ _ _ hdata
        obtain ⟨next, hnext, hmixed⟩ := writeExtentUnit_view hview hlength (start + done)
          (min (length - done) 8388608) (by omega) (by omega) h
        rw [hdata] at hcopy
        change (writeExtentUnit false state.1 _ >>= _) = _ at hcopy
        rw [hnext] at hcopy
        have hfinal := ih (done + min (length - done) 8388608) (by omega) hmixed hcopy
        refine hfinal.congr fun i => ?_
        rw [or_assoc]
        refine or_congr_right ?_
        omega
    · rw [if_neg hmore] at hcopy
      cases hcopy
      exact h.congr fun i => (or_iff_left (by omega)).symm

theorem copyExtents_spec (hread : ∀ offset n bytes, overlay.read offset n = .ok bytes → bytes = slice view offset n)
    (hview : view.length < 9223372036854775808) (hlength : view.length = backup.length) (extents : List (Nat × Nat))
    (hinside : ∀ e ∈ extents, e.1 + e.2 ≤ view.length) {state final : Bytes × Int} {covered : Nat → Prop}
    (h : Mixed covered (view ++ more) (backup ++ more) state.1) (hcopy : copyExtents overlay extents state = .ok final) :
    Mixed (fun i => covered i ∨ ∃ e ∈ extents, e.1 ≤ i ∧ i < e.1 + e.2) (view ++ more) (backup ++ more) final.1 := by
  induction extents generalizing state covered with
  | nil =>
    cases hcopy
    exact h.congr fun i => by simp
  | cons e rest ih =>
    obtain ⟨he, hrest⟩ := List.forall_mem_cons.mp hinside
    obtain ⟨start, length⟩ := e
    unfold copyExtents at hcopy
    cases hone : copyExtent overlay start length length 0 state with
    | error e =>
      rw [hone] at hcopy
      cases hcopy
    | ok next =>
      rw [hone] at hcopy
      have hmixed := copyExtent_spec hread hview hlength he length 0 (by omega) h hone
      refine (ih hrest hmixed hcopy).congr fun i => ?_
      rw [or_assoc, List.exists_mem_cons_iff]
      rfl

theorem copyOverlay_spec {rows : List Row} (hmap : overlay.map = .ok (rows.map Row.value))
    (htruthful : TruthfulMap rows backup view)
    (hread : ∀ offset n bytes, overlay.read offset n = .ok bytes → bytes = slice view offset n)
    (hview : view.length < 9223372036854775808) (hlength : view.length = backup.length) {final : Bytes × Int}
    (hcopy : copyOverlay overlay (backup ++ more) = .ok final) :
    Mixed (fun i => ∃ r ∈ rows, r.copied = true ∧ r.extent.Covers i) (view ++ more) (backup ++ more) final.1 := by
  have hbounds := htruthful.tiles.bounds.2
  have hextents := overlayExtents_rows rows htruthful.depth fun r hr => by
    have hr := hbounds r hr
    omega
  unfold copyOverlay at hcopy
  rw [hmap] at hcopy
  change (overlayExtents (rows.map Row.value) >>= _) = _ at hcopy
  rw [hextents] at hcopy
  have hinside : ∀ e ∈ copiedExtents rows, e.1 + e.2 ≤ view.length := by
    intro e he
    obtain ⟨r, hr, rfl⟩ := List.mem_map.mp he
    exact (hbounds r (List.mem_of_mem_filter hr)).2
  refine (copyExtents_spec hread hview hlength _ hinside (Mixed.none _ _) hcopy).congr fun i => ?_
  rw [false_or]
  constructor
  · rintro ⟨e, he, hi⟩
    obtain ⟨r, hr, rfl⟩ := List.mem_map.mp he
    obtain ⟨hmem, hcopied⟩ := List.mem_filter.mp hr
    exact ⟨r, hmem, (Bool.and_eq_true_iff.mp hcopied).1, Row.covers_iff.mpr hi⟩
  · rintro ⟨r, hr, hcopied, hi⟩
    have hi := Row.covers_iff.mp hi
    have hpositive : 0 < r.length := by omega
    refine ⟨(r.start, r.length), List.mem_map.mpr ⟨r, List.mem_filter.mpr ⟨hr, ?_⟩, rfl⟩, hi⟩
    simp [hcopied, hpositive]

/-- After a finalisation that reports success the volume reads as the overlay iff the backup is zero wherever the top
image has zeros. -/
theorem finalize_keeps_view_iff {rows : List Row} (hmap : overlay.map = .ok (rows.map Row.value))
    (htruthful : TruthfulMap rows backup view)
    (hread : ∀ offset n bytes, overlay.read offset n = .ok bytes → bytes = slice view offset n)
    (hview : view.length < 9223372036854775808) (hlength : view.length = backup.length) {device : Except String String}
    {vmName : String} {swap : Except String Unit} {response : FinalizeInstantDiskResponse} {volume : Bytes}
    (hsuccess : finalizeInstantDisk device overlay vmName swap (backup ++ more) = .ok (response, volume)) :
    volume = view ++ more ↔
      ∀ r ∈ rows, r.depth = 0 → r.zero = true → ∀ i, r.extent.Covers i → backup[i]? = some 0 := by
  have hmixed : Mixed (fun i => ∃ r ∈ rows, r.copied = true ∧ r.extent.Covers i) (view ++ more)
      (backup ++ more) volume := by
    unfold finalizeInstantDisk at hsuccess
    cases device with
    | error e => cases hsuccess
    | ok device =>
      cases hcopy : copyOverlay overlay (backup ++ more) with
      | error e =>
        rw [hcopy] at hsuccess
        cases hsuccess
      | ok final =>
        rw [hcopy] at hsuccess
        cases hsuccess
        exact copyOverlay_spec hmap htruthful hread hview hlength hcopy
  have hbefore : ∀ {l : Bytes} {i : Nat}, i < l.length → (l ++ more)[i]? = l[i]? :=
    fun hi => List.getElem?_append_left hi
  rw [hmixed.eq_iff]
  constructor
  · intro hsame r hr hdepth hzero i hi
    have hlt := htruthful.tiles.lt_of_covers hr hi
    -- the row is the only one at this byte, and it is not copied
    have hsame := hsame i fun ⟨s, hs, hcopied, hsi⟩ => by
      obtain rfl := htruthful.tiles.covers_unique hr hs hi hsi
      simp [Row.copied, hzero] at hcopied
    rw [hbefore hlt, hbefore (hlength ▸ hlt)] at hsame
    exact hsame.trans (htruthful.zero r hr hzero i hi)
  · intro hzero i hi
    by_cases hlt : i < view.length
    · obtain ⟨r, hr, hcovers⟩ := htruthful.tiles.exists_covers (Nat.zero_le i) hlt
      rw [hbefore hlt, hbefore (hlength ▸ hlt)]
      by_cases hdepth : r.depth = 0
      · by_cases hrow : r.zero = true
        · rw [hzero r hr hdepth hrow i hcovers, htruthful.zero r hr hrow i hcovers]
        · have hdata : r.data = false := by
            by_contra hdata
            exact hi ⟨r, hr, by simp_all [Row.copied], hcovers⟩
          exact (htruthful.backing r hr (.inr ⟨hdata, Bool.eq_false_iff.mpr hrow⟩) i hcovers).symm
      · exact (htruthful.backing r hr (.inl hdepth) i hcovers).symm
    · rw [List.getElem?_append_right (by omega), List.getElem?_append_right (by omega), hlength]

theorem truthfulMap_of_bytes {rows : List Row} (htiles : Tiles 0 rows view.length)
    (hdepth : ∀ r ∈ rows, r.depth < 18446744073709551616)
    (hbytes : ∀ i < view.length, ∀ r ∈ rows, r.extent.Covers i → (r.zero = true → view[i]? = some 0) ∧
      (r.depth ≠ 0 ∨ (r.data = false ∧ r.zero = false) → view[i]? = backup[i]?)) : TruthfulMap rows backup view := by
  refine ⟨htiles, hdepth, fun r hr hzero i hi => ?_, fun r hr hbacking i hi => ?_⟩
  · exact (hbytes i (htiles.lt_of_covers hr hi) r hr hi).1 hzero
  · exact (hbytes i (htiles.lt_of_covers hr hi) r hr hi).2 hbacking

/-- The guest wrote two bytes, and zeroed two that were zero before. -/
theorem written_bytes_finalised :
    TruthfulMap [⟨0, 2, 0, true, false⟩, ⟨2, 2, 1, true, false⟩, ⟨4, 2, 0, false, true⟩] [7, 7, 7, 7, 0, 0]
      [1, 2, 7, 7, 0, 0] ∧
      finalizeInstantDisk (.ok "/dev/vg0/web")
        ⟨.ok ([⟨0, 2, 0, true, false⟩, ⟨2, 2, 1, true, false⟩, ⟨4, 2, 0, false, true⟩].map Row.value),
          fun offset n => .ok (slice [1, 2, 7, 7, 0, 0] offset n)⟩ "web" (.ok ()) ([7, 7, 7, 7, 0, 0] ++ [9]) =
        .ok (⟨true, "volume kept", 2, "/dev/vg0/web"⟩, [1, 2, 7, 7, 0, 0] ++ [9]) := by
  have htruthful : TruthfulMap [⟨0, 2, 0, true, false⟩, ⟨2, 2, 1, true, false⟩, ⟨4, 2, 0, false, true⟩]
      [7, 7, 7, 7, 0, 0] [1, 2, 7, 7, 0, 0] := truthfulMap_of_bytes ⟨rfl, rfl, rfl, rfl⟩ (by decide) (by decide)
  obtain ⟨final, hfinal⟩ : ∃ volume, finalizeInstantDisk (.ok "/dev/vg0/web")
      ⟨.ok ([⟨0, 2, 0, true, false⟩, ⟨2, 2, 1, true, false⟩, ⟨4, 2, 0, false, true⟩].map Row.value),
        fun offset n => .ok (slice [1, 2, 7, 7, 0, 0] offset n)⟩ "web" (.ok ()) ([7, 7, 7, 7, 0, 0] ++ [9]) =
      .ok (⟨true, "volume kept", 2, "/dev/vg0/web"⟩, volume) := ⟨_, rfl⟩
  have hzero : ∀ i < 6, ∀ r ∈ ([⟨0, 2, 0, true, false⟩, ⟨2, 2, 1, true, false⟩, ⟨4, 2, 0, false, true⟩] : List Row),
      r.zero = true → r.extent.Covers i → ([7, 7, 7, 7, 0, 0] : Bytes)[i]? = some 0 := by decide
  have hview : final = [1, 2, 7, 7, 0, 0] ++ [9] := by
    refine (finalize_keeps_view_iff rfl htruthful (fun _ _ _ h => (Except.ok.inj h).symm) (by decide) rfl hfinal).mpr ?_
    intro r hr _ hrow i hi
    exact hzero i (htruthful.tiles.lt_of_covers hr hi) r hr hrow hi
  exact ⟨htruthful, hview ▸ hfinal⟩

/-- The guest zeroed two bytes. They are not copied, and the volume keeps those of the backup. -/
theorem zeroed_bytes_lost :
    TruthfulMap [⟨0, 2, 1, true, false⟩, ⟨2, 2, 0, false, true⟩] [7, 7, 7, 7] [7, 7, 0, 0] ∧
      finalizeInstantDisk (.ok "/dev/vg0/web")
        ⟨.ok ([⟨0, 2, 1, true, false⟩, ⟨2, 2, 0, false, true⟩].map Row.value),
          fun offset n => .ok (slice [7, 7, 0, 0] offset n)⟩ "web" (.ok ()) [7, 7, 7, 7] =
        .ok (⟨true, "volume kept", 0, "/dev/vg0/web"⟩, [7, 7, 7, 7]) :=
  ⟨truthfulMap_of_bytes ⟨rfl, rfl, rfl⟩ (by decide) (by decide), rfl⟩

end Copy

end Kcore.Instant
