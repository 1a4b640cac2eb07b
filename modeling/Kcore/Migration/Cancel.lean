import Kcore.Lib.Run
import Kcore.Migration.Driver
import Mathlib.Tactic.SplitIfs

/-!
# Cancel requests

`CancelVmOperation` reads the row, checks its phase and writes the request. The driver reads the request at its last
look and moves the guest after that; the cold copy stays in phase `Copying` all the way. A request that is written
after the last look is accepted and has no effect.
-/

namespace Kcore.Migration

open Machine

def Honoured (w : World) : Prop :=
  (w.accepted = true → w.op.phase ≠ .done) ∧ w.late = false

/-- A request is written to an open row before the driver goes on after its last look, and looks can read the row. -/
def InTime (w : World) : Act → Prop
  | .drive ch => w.op.cancelRequested = true → (∃ last cancelled next, w.prog = .look last cancelled next) → ch.ok = true
  | .cancelWrite => w.passed = false ∧ w.op.finished = false
  | _ => True

/-! ### Where the drivers look -/

namespace Prog

/-- The guest is neither sent nor reassigned and the row does not become `Done`, as long as the driver goes on only
after the looks that `through` names. -/
def Spares (through : Bool → Bool) : Prog → Prop
  | .call c ok err => c ≠ .send ∧ ok.Spares through ∧ err.Spares through
  | .cleanup c next => c ≠ .send ∧ next.Spares through
  | .write phase _ _ next => phase ≠ .done ∧ next.Spares through
  | .look last cancelled next => cancelled.Spares through ∧ (through last = true → next.Spares through)
  | .reassign _ _ => False
  | .ifMoved moved next => moved.Spares through ∧ next.Spares through
  | .arm next => next.Spares through
  | .disarm next => next.Spares through
  | .stop => True

private theorem Spares.mono {p : Prog} {through through' : Bool → Bool} (h : p.Spares through)
    (hle : ∀ last, through' last = true → through last = true) : p.Spares through' := by
  induction p with
  | call c ok err ihok iherr => exact ⟨h.1, ihok h.2.1, iherr h.2.2⟩
  | cleanup c next ih | write phase send finished next ih => exact ⟨h.1, ih h.2⟩
  | look last cancelled next ihyes ihno => exact ⟨ihyes h.1, fun hgo => ihno (h.2 (hle last hgo))⟩
  | reassign ok err => exact h
  | ifMoved moved next ihmoved ihnext => exact ⟨ihmoved h.1, ihnext h.2⟩
  | arm next ih | disarm next ih => exact ih h
  | stop => trivial

abbrev Guarded : Prog → Prop := Spares (!·)

private theorem guarded_shared : shared.Guarded := by simp [shared, liveMigrate, either, Spares]

private theorem guarded_coldCopy : coldCopy.Guarded := by simp [coldCopy, giveUp, Spares]

private theorem guarded_dropMirror : dropMirror.Guarded := by simp [dropMirror, Spares]

private theorem guarded_sendMirrored : sendMirrored.Guarded := by simp [sendMirrored, liveMigrate, either, Spares]

private theorem guarded_mirrorLoop (rounds errors : Nat) : (mirrorLoop rounds errors).Guarded := by
  induction rounds generalizing errors with
  | zero => exact guarded_dropMirror
  | succ rounds ih =>
    unfold mirrorLoop
    split <;> simp [Spares, either, guarded_dropMirror, guarded_sendMirrored, ih]

private theorem guarded_liveMirror (rounds : Nat) : (liveMirror rounds).Guarded := by
  simp [liveMirror, Spares, guarded_dropMirror, guarded_mirrorLoop]

end Prog

private theorem guarded_start (d : Driver) : d.prog.Guarded := by
  cases d with
  | shared => exact Prog.guarded_shared
  | coldCopy => exact Prog.guarded_coldCopy
  | liveMirror rounds => exact Prog.guarded_liveMirror rounds

/-! ### What a step keeps -/

def Spared (through : Bool → Bool) (w : World) : Prop :=
  w.prog.Spares through ∧ w.op.phase ≠ .done ∧ .send ∉ w.pending

variable {w : World}

private theorem Spared.drive {through : Bool → Bool} {ch : Chance} (h : Spared through w)
    (hlook : ∀ last cancelled next, w.prog = .look last cancelled next → (ch.ok && w.op.cancelRequested) = false →
      through last = true) : Spared through (w.drive ch) ∧ (w.late = false → (w.drive ch).late = false) := by
  obtain ⟨op, prog, nodes, pending, armed, reconciling, passed, allowed, written, accepted, late⟩ := w
  obtain ⟨hprog, hphase, hpending⟩ := h
  simp only at hprog hphase hpending hlook
  have hdelayed : ∀ c, c ≠ .send → .send ∉ pending ++ ch.delayed c := by
    intro c hc
    unfold Chance.delayed
    split <;> simp [hpending, hc.symm]
  cases prog with
  | call c ok err =>
    obtain ⟨hc, hok, herr⟩ := hprog
    refine ⟨⟨?_, hphase, hdelayed c hc⟩, fun hlate => by simp [World.drive, hlate, hc]⟩
    cases h : ch.ok <;> simpa [World.drive, h]
  | cleanup c next => exact ⟨⟨hprog.2, hphase, hdelayed c hprog.1⟩, fun hlate => hlate⟩
  | write phase send finished next =>
    refine ⟨⟨hprog.2, ?_, hpending⟩, fun hlate => hlate⟩
    cases h : ch.ok
    · simpa [World.drive, h] using hphase
    · simpa [World.drive, h, Operation.update] using hprog.1
  | look last cancelled next =>
    refine ⟨⟨?_, hphase, hpending⟩, fun hlate => hlate⟩
    cases h : ch.ok && op.cancelRequested
    · simpa [World.drive, h] using hprog.2 (hlook last cancelled next rfl h)
    · simpa [World.drive, h] using hprog.1
  | reassign ok err => exact hprog.elim
  | ifMoved moved next =>
    refine ⟨⟨?_, hphase, hpending⟩, fun hlate => hlate⟩
    cases h : ch.ok && nodes.onTarget
    · simpa [World.drive, h] using hprog.2
    · simpa [World.drive, h] using hprog.1
  | arm next | disarm next => exact ⟨⟨hprog, hphase, hpending⟩, fun hlate => hlate⟩
  | stop => exact ⟨⟨trivial, hphase, hpending⟩, fun hlate => hlate⟩

private theorem drive_frame (w : World) (ch : Chance) : (w.drive ch).op.cancelRequested = w.op.cancelRequested ∧
    (w.drive ch).written = w.written ∧ (w.drive ch).accepted = w.accepted ∧
    (w.accepted = false → (w.drive ch).late = w.late) := by
  unfold World.drive
  split <;> simp +contextual
  split <;> rfl

private theorem before_of_drive {ch : Chance} (h : (w.drive ch).passed = false) : w.passed = false ∧
    ∀ last cancelled next, w.prog = .look last cancelled next → (ch.ok && w.op.cancelRequested) = false →
      (!last) = true := by
  unfold World.drive at h
  split at h <;> simp_all
  rename_i last _ _ _
  cases last <;> simp_all

/-- Nothing happens any more once a request was written, and until the driver goes on after its last look only what
stands before it. -/
structure Held (w : World) : Prop where
  late : w.late = false
  cancelled : 0 < w.written ∨ w.accepted = true → w.op.cancelRequested = true ∧ Spared (fun _ => false) w
  before : w.passed = false → Spared (!·) w

private theorem Held.honoured (h : Held w) : Honoured w := ⟨fun hacc => (h.cancelled (.inr hacc)).2.2.1, h.late⟩

private theorem Held.drive {ch : Chance} (hw : Held w) (hlook : InTime w (.drive ch)) : Held (w.drive ch) := by
  obtain ⟨hflag, hwritten, haccepted, hlate⟩ := drive_frame w ch
  have hgone : 0 < w.written ∨ w.accepted = true → w.op.cancelRequested = true ∧
      Spared (fun _ => false) (w.drive ch) ∧ (w.late = false → (w.drive ch).late = false) := by
    intro hcancel
    obtain ⟨hrequested, hspared⟩ := hw.cancelled hcancel
    refine ⟨hrequested, hspared.drive fun last cancelled next hprog hfound => ?_⟩
    rw [hlook hrequested ⟨last, cancelled, next, hprog⟩, hrequested] at hfound
    exact hfound.symm
  refine ⟨?_, ?_, fun hpassed => ?_⟩
  · cases hacc : w.accepted with
    | false => exact (hlate hacc).trans hw.late
    | true => exact (hgone (.inr hacc)).2.2 hw.late
  · rw [hflag, hwritten, haccepted]
    exact fun hcancel => ⟨(hgone hcancel).1, (hgone hcancel).2.1⟩
  · obtain ⟨hbefore, hlast⟩ := before_of_drive hpassed
    exact ((hw.before hbefore).drive hlast).1

private theorem Held.land (hw : Held w) (i : Nat) : Held (w.land i) := by
  unfold World.land
  split
  · exact hw
  · rename_i c hc
    have hkept : ∀ through, Spared through w → Spared through { w with pending := w.pending.eraseIdx i } :=
      fun through h => ⟨h.1, h.2.1, fun hmem => h.2.2 (List.mem_of_mem_eraseIdx hmem)⟩
    refine ⟨?_, fun hcancel => ⟨(hw.cancelled hcancel).1, hkept _ (hw.cancelled hcancel).2⟩,
      fun hpassed => hkept _ (hw.before hpassed)⟩
    cases hacc : w.accepted with
    | false => simp [hw.late]
    | true =>
      have hne : c ≠ .send := fun h => (hw.cancelled (.inr hacc)).2.2.2 (h ▸ List.mem_of_getElem? hc)
      simp [hw.late, hne]

private theorem Held.act {a : Act} (hw : Held w) (htime : InTime w a) : Held (w.act a) := by
  cases a with
  | drive ch => exact hw.drive htime
  | land i => exact hw.land i
  | cancelRead =>
    change Held w.cancelRead
    unfold World.cancelRead
    split_ifs
    · exact ⟨hw.late, hw.cancelled, hw.before⟩
    · exact hw
  | cancelWrite =>
    change Held w.cancelWrite
    unfold World.cancelWrite
    split_ifs
    · exact hw
    · have h := hw.before htime.1
      exact ⟨hw.late, fun _ => ⟨by simp [htime.2], h.1.mono fun _ hgo => (nomatch hgo), h.2⟩, fun _ => h⟩
  | cancelReturn =>
    change Held w.cancelReturn
    unfold World.cancelReturn
    split_ifs with h
    · exact hw
    · exact ⟨hw.late, fun _ => hw.cancelled (.inl (Nat.pos_of_ne_zero h)), hw.before⟩

def succeeds : Act := .drive ⟨true, .none⟩

def overlooked : List Act :=
  List.replicate 5 succeeds ++ [.cancelRead, .cancelWrite, .cancelReturn] ++ List.replicate 9 succeeds

end Kcore.Migration
