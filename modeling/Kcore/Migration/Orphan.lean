import Kcore.Lib.Run
import Kcore.Migration.Driver
import Mathlib.Tactic.SplitIfs

/-!
# Moves whose driver is gone

A driver may stop at any point. The reconciler then closes the row: rows that have been idle for long are closed at
once, a mirror or a copy is aborted on both nodes first, and a guest that has arrived is finalized. What the
reconciler does not undo stays behind: it never starts a guest again that was stopped for a cold copy, it closes idle
rows without a word to the nodes, and it finalizes a guest without releasing the mirror.
-/

namespace Kcore.Migration

open Machine

/-! ### `reconcile_once` -/

/-- `expire_stale_preparing_operations`, for a row that was not written for `idle` seconds. -/
def Operation.expire (op : Operation) (idle : Nat) : Operation :=
  let expired := (op.phase = .preparing && (op.cancelRequested && 60 < idle || 1800 < idle)) ||
    (localPhaseIsOpen op.phase && 1800 < idle)
  if !op.finished && expired then
    { op with phase := if op.cancelRequested then .cancelled else .failed, finished := true }
  else op

def Operation.reaped (op : Operation) (idle : Nat) : Bool :=
  !op.finished && localPhaseIsOpen op.phase && (600 < idle || (op.cancelRequested && 60 < idle))

def Prog.resumeWaiting : Prog :=
  .call .lookup (.call .client (.call .waitReceive
    (.call .received (.write .reassigned (some true) false .stop) (.write .failed (some true) true .stop))
      .stop) .stop) .stop

def Prog.resumeFinalize : Prog :=
  let release := .call .finalizeSource (.write .done (some true) true .stop) .stop
  let source := .call .client (.write .finalizingSource (some true) false release) .stop
  .call .lookup (.call .client (.write .finalizingDest (some true) false (either .finalizeDest source)) source) .stop

def Prog.reap (cancelRequested : Bool) : Prog :=
  .call .lookup (.call .abortSource (.call .abortTarget
    (.write (if cancelRequested then .cancelled else .failed) (some false) true .stop) .stop) .stop) .stop

def Prog.reconcile (op : Operation) (idle : Nat) : Prog :=
  if op.finished then .stop
  else if op.phase = .waiting then .resumeWaiting
  else if op.phase ∈ [.reassigned, .finalizingDest, .finalizingSource] then .resumeFinalize
  else if op.reaped idle then .reap op.cancelRequested
  else .stop

inductive Step where
  | act (a : Act)
  | stop (dropped : Bool)
  | tick (idle : Nat)

/-- A driver stops with its controller, or because its request is dropped. Ticks begin when it is gone. -/
def World.step (w : World) : Step → World
  | .act a => w.act a
  | .stop dropped => { w with prog := if dropped && w.armed then .mirrorGuard else .stop, armed := false }
  | .tick idle =>
    match w.prog with
    | .stop => { w with
        op := w.op.expire idle, prog := .reconcile (w.op.expire idle) idle, armed := false, reconciling := true }
    | _ => w

/-! ### Orphans -/

def Nodes.clean (n : Nodes) : Bool := !n.sourceSession && !n.targetSession && !n.mirrored && (n.onTarget || !n.quiesced)

/-- Once the row is finished and nobody works on it, nothing is left of the move. -/
def NoOrphan (w : World) : Prop := w.prog = .stop → w.op.finished = true → w.nodes.clean = true

def Phase.early (p : Phase) : Bool := p ∈ [Phase.preparing, .mirrorSyncing, .copying, .sending]

/-- What a call of an orderly run may have done when it fails. The drivers' calls that clean up and the application of
the target's configuration after a cold copy do not fail, a copy fails without leaving its session, and a mirror is not
left without one. No effect is still to come when the failure is reported. -/
def Call.leaves (reconciling : Bool) : Call → List Effect
  | .abortSource => if reconciling then [.none, .part, .whole] else []
  | .applyTarget => if reconciling then [.none, .whole] else []
  | .copy => [.none]
  | _ => [.none, .whole]

def Prog.cleans (reconciling : Bool) (ch : Chance) : Prog → Prop
  | .call c _ _ => ch.ok = true ∨ ch.effect ∈ c.leaves reconciling
  | .cleanup _ _ => ch.ok = true
  | _ => True

/-- A driver cleans up after itself, and stops while its row is open and the guest not sent, or under the guard of the
mirror. A tick finds no row that has expired, and takes over none whose guest is held back on the source. -/
def Orderly (w : World) : Step → Prop
  | .act (.drive ch) => w.prog.cleans w.reconciling ch
  | .act _ => True
  | .stop dropped => w.prog = .stop ∨ (dropped && w.armed) = true ∨ (w.op.finished = false ∧ w.op.phase.early = true)
  | .tick idle => w.prog = .stop → w.op.expire idle = w.op ∧ (w.op.reaped idle = true → w.nodes.onTarget = true ∨
      w.nodes.quiesced = false)

/-! ### Programs that leave nothing behind -/

structure Spot where
  nodes : Nodes
  phase : Phase
  finished : Bool
  armed : Bool
  reconciling : Bool

def World.spot (w : World) : Spot := ⟨w.nodes, w.op.phase, w.op.finished, w.armed, w.reconciling⟩

def Spot.left (s : Spot) (c : Call) (e : Effect) : Spot := { s with nodes := s.nodes.left c e }

def Spot.settled (s : Spot) : Bool := s.nodes.clean || (!s.finished && s.phase.early)

/-- However its steps end, as far as the driver has to clean up, the program ends in a settled spot. -/
def Prog.endsWell : Prog → Spot → Bool
  | .call c ok err, s =>
    (!s.armed || (s.nodes.after c = s.nodes && s.nodes.partly c = s.nodes)) && ok.endsWell (s.left c .whole) &&
      (c.leaves s.reconciling).all fun e => err.endsWell (s.left c e)
  | .cleanup c next, s => !s.armed && !s.reconciling && next.endsWell (s.left c .whole)
  | .write phase _ finished next, s =>
    next.endsWell { s with phase, finished := s.finished || finished } && next.endsWell s
  | .look _ cancelled next, s => cancelled.endsWell s && next.endsWell s
  | .reassign ok err, s => !s.armed && ok.endsWell { s with nodes := { s.nodes with onTarget := true } } &&
      err.endsWell s
  | .ifMoved moved next, s => (!s.nodes.onTarget || moved.endsWell s) && next.endsWell s
  | .arm next, s => !s.nodes.quiesced && !s.reconciling && next.endsWell { s with armed := true }
  | .disarm next, s => next.endsWell { s with armed := false }
  | .stop, s => s.settled

def syncing : Spot := ⟨⟨true, true, true, false, false⟩, .mirrorSyncing, false, true, false⟩

private theorem endsWell_dropMirror : (Prog.disarm .dropMirror).endsWell syncing = true := by decide

private theorem endsWell_sendMirrored : (Prog.disarm .sendMirrored).endsWell syncing = true := by decide +kernel

/-- The calls that are made while the mirror is polled leave it as it is. -/
private theorem endsWell_call_syncing {c : Call} {ok err : Prog} (hc : syncing.nodes.after c = syncing.nodes)
    (hpart : syncing.nodes.partly c = syncing.nodes) (hok : ok.endsWell syncing = true)
    (herr : err.endsWell syncing = true) : (Prog.call c ok err).endsWell syncing = true := by
  have hleft : ∀ e, syncing.left c e = syncing := by
    intro e
    cases e <;> simp [Spot.left, Nodes.left, hc, hpart]
  simp [Prog.endsWell, hleft, hc, hpart, hok, herr]

private theorem endsWell_mirrorLoop (rounds errors : Nat) :
    (Prog.mirrorLoop rounds errors).endsWell syncing = true := by
  induction rounds generalizing errors with
  | zero => exact endsWell_dropMirror
  | succ rounds ih =>
    have hsynced : (Prog.call .client (.call .commit (.disarm .sendMirrored) (.disarm .dropMirror))
        (.disarm .dropMirror)).endsWell syncing = true :=
      endsWell_call_syncing rfl rfl (endsWell_call_syncing rfl rfl endsWell_sendMirrored endsWell_dropMirror)
        endsWell_dropMirror
    have hanswer :=
      endsWell_call_syncing (c := .healthy) rfl rfl (endsWell_call_syncing (c := .inSync) rfl rfl hsynced (ih 0))
      endsWell_dropMirror
    have hstatus : ∀ p : Prog, p.endsWell syncing = true → ∀ q : Prog, q.endsWell syncing = true →
        (Prog.call .mirrorStatus (.write .mirrorSyncing none false p) q).endsWell syncing = true := fun p hp q hq =>
      endsWell_call_syncing rfl rfl (Bool.and_eq_true_iff.mpr ⟨hp, hp⟩) hq
    rw [Prog.mirrorLoop]
    refine Bool.and_eq_true_iff.mpr ⟨by decide, hstatus _ hanswer _ ?_⟩
    split_ifs
    · exact endsWell_dropMirror
    · exact endsWell_call_syncing rfl rfl (ih _) (ih _)

private theorem endsWell_start (d : Driver) : d.prog.endsWell d.start.spot = true := by
  cases d with
  | shared => decide
  | coldCopy => decide
  | liveMirror rounds =>
    have hloop := endsWell_mirrorLoop rounds 0
    unfold syncing at hloop
    simp [Driver.prog, Driver.start, World.spot, Prog.liveMirror, Prog.endsWell, Spot.left, Nodes.left, Nodes.after,
      Nodes.partly, Call.leaves, Driver.phase,
      Prog.dropMirror, Spot.settled, Nodes.clean, Phase.early, hloop]

/-! ### What a step keeps -/

structure Inv (w : World) : Prop where
  ends : w.prog.endsWell w.spot = true
  armed : w.armed = true → w.nodes.quiesced = false ∧ w.reconciling = false
  mirrored : w.nodes.mirrored = true → w.nodes.sourceSession = true
  pending : w.pending = []

variable {n : Nodes} {ch : Chance}

private theorem mirrored_after (h : n.mirrored = true → n.sourceSession = true) (c : Call) :
    (n.after c).mirrored = true → (n.after c).sourceSession = true := by
  cases c with
  | abortSource | releaseSource => cases hs : n.sourceSession <;> simp_all [Nodes.after]
  | startMirror | copy => exact fun _ => rfl
  | _ => exact h

variable {w : World} {c : Call}

private theorem mirrored_left (h : n.mirrored = true → n.sourceSession = true) {e : Effect} {reconciling : Bool}
    (he : e ∈ c.leaves reconciling) : (n.left c e).mirrored = true → (n.left c e).sourceSession = true := by
  cases e with
  | none | later => exact h
  | whole => exact mirrored_after h c
  | part =>
    cases c with
    | abortSource | releaseSource => cases hs : n.sourceSession <;> simp_all [Nodes.left, Nodes.partly]
    | startMirror => simp [Call.leaves] at he
    | _ => exact h

private theorem later_not_mem (reconciling : Bool) (c : Call) : .later ∉ c.leaves reconciling := by
  cases reconciling <;> cases c <;> decide

private theorem delayed_eq_nil {reconciling : Bool} (h : ch.ok = true ∨ ch.effect ∈ c.leaves reconciling) :
    ch.delayed c = [] := by
  refine if_neg fun hlater => ?_
  simp only [Bool.and_eq_true, Bool.not_eq_true', decide_eq_true_eq] at hlater
  refine later_not_mem reconciling c (hlater.2 ▸ h.resolve_left fun hok => ?_)
  exact absurd (hlater.1.symm.trans hok) (by decide)

private theorem inv_drive_call {ok err : Prog} (hw : Inv w) (hprog : w.prog = .call c ok err)
    (hch : w.prog.cleans w.reconciling ch) : Inv (w.drive ch) := by
  obtain ⟨op, prog, nodes, pending, armed, reconciling, passed, allowed, written, accepted, late⟩ := w
  obtain ⟨hends, harmed, hmirr, hpending⟩ := hw
  simp only at hprog harmed hmirr hch hpending
  subst hprog
  simp only [Prog.endsWell, World.spot, Bool.and_eq_true, Bool.or_eq_true, Bool.not_eq_true',
    List.all_eq_true] at hends
  obtain ⟨⟨hfree, hok⟩, herr⟩ := hends
  have hnone : pending ++ ch.delayed c = [] := by rw [hpending, delayed_eq_nil hch, List.nil_append]
  have hstill : ∀ e, armed = true → (nodes.left c e).quiesced = false ∧ reconciling = false := by
    intro e ha
    obtain ⟨hafter, hpart⟩ := hfree.resolve_left (by simp [ha])
    have hsame : nodes.left c e = nodes := by
      cases e <;> simp [Nodes.left, of_decide_eq_true hafter, of_decide_eq_true hpart]
    rw [hsame]
    exact harmed ha
  cases hchance : ch.ok with
  | true =>
    simp only [World.drive, hchance]
    exact ⟨hok, hstill .whole, mirrored_after hmirr c, hnone⟩
  | false =>
    have he := hch.resolve_left (by simp [hchance])
    simp only [World.drive, hchance]
    exact ⟨herr _ he, hstill _, mirrored_left hmirr he, hnone⟩

private theorem inv_drive (hw : Inv w) (hch : w.prog.cleans w.reconciling ch) : Inv (w.drive ch) := by
  obtain ⟨op, prog, nodes, pending, armed, reconciling, passed, allowed, written, accepted, late⟩ := w
  cases prog with
  | call c ok err => exact inv_drive_call hw rfl hch
  | cleanup c next =>
    obtain ⟨hends, -, hmirr, hpending⟩ := hw
    simp only [Prog.endsWell, Bool.and_eq_true, Bool.not_eq_true'] at hends
    obtain ⟨⟨hno, hrec⟩, hnext⟩ := hends
    have hok : ch.ok = true := hch
    simp only [World.drive, hok]
    exact ⟨hnext, fun ha => absurd (hno.symm.trans ha) (by decide), mirrored_after hmirr c,
      by simpa [Chance.delayed, hok] using hpending⟩
  | write phase send finished next =>
    obtain ⟨hends, harmed, hmirr, hpending⟩ := hw
    obtain ⟨hwritten, hfailed⟩ := Bool.and_eq_true_iff.mp hends
    refine ⟨?_, harmed, hmirr, hpending⟩
    cases hok : ch.ok with
    | true =>
      simp only [World.drive, hok]
      exact hwritten
    | false =>
      simp only [World.drive, hok]
      exact hfailed
  | look last cancelled next =>
    obtain ⟨hends, harmed, hmirr, hpending⟩ := hw
    obtain ⟨hyes, hno⟩ := Bool.and_eq_true_iff.mp hends
    refine ⟨?_, harmed, hmirr, hpending⟩
    cases hok : ch.ok && op.cancelRequested with
    | true =>
      simp only [World.drive, hok]
      exact hyes
    | false =>
      simp only [World.drive, hok]
      exact hno
  | reassign ok err =>
    obtain ⟨hends, harmed, hmirr, hpending⟩ := hw
    simp only [Prog.endsWell, Bool.and_eq_true] at hends
    cases hok : ch.ok with
    | true =>
      simp only [World.drive, hok]
      exact ⟨hends.1.2, harmed, hmirr, hpending⟩
    | false =>
      simp only [World.drive, hok]
      exact ⟨hends.2, harmed, hmirr, hpending⟩
  | ifMoved moved next =>
    obtain ⟨hends, harmed, hmirr, hpending⟩ := hw
    simp only [Prog.endsWell, Bool.and_eq_true, Bool.or_eq_true, Bool.not_eq_true'] at hends
    refine ⟨?_, harmed, hmirr, hpending⟩
    cases hok : ch.ok && nodes.onTarget with
    | true =>
      have hon : nodes.onTarget = true := (Bool.and_eq_true_iff.mp hok).2
      simp only [World.drive, hok]
      exact hends.1.resolve_left fun hoff => absurd (hoff.symm.trans hon) (by decide)
    | false =>
      simp only [World.drive, hok]
      exact hends.2
  | arm next =>
    obtain ⟨hends, -, hmirr, hpending⟩ := hw
    simp only [Prog.endsWell, Bool.and_eq_true, Bool.not_eq_true'] at hends
    exact ⟨hends.2, fun _ => hends.1, hmirr, hpending⟩
  | disarm next => exact ⟨hw.ends, fun ha => (nomatch ha), hw.mirrored, hw.pending⟩
  | stop => exact hw

/-- A spot with nothing left stays so under programs that change nothing on the nodes. -/
private theorem endsWell_resume {s : Spot} (hclean : s.nodes.clean = true) (harmed : s.armed = false) :
    Prog.resumeWaiting.endsWell s = true ∧ Prog.resumeFinalize.endsWell s = true := by
  simp [Prog.resumeWaiting, Prog.resumeFinalize, Prog.either, Prog.endsWell, Spot.left, Nodes.left, Nodes.after,
    Nodes.partly, Call.leaves, Spot.settled, hclean, harmed]

private theorem clean_after_aborts (hmirr : n.mirrored = true → n.sourceSession = true)
    (hguest : n.onTarget = true ∨ n.quiesced = false) : ((n.after .abortSource).after .abortTarget).clean = true := by
  obtain ⟨source, target, mirrored, quiesced, onTarget⟩ := n
  cases source <;> cases mirrored <;> simp_all [Nodes.after, Nodes.clean]

private theorem endsWell_reap {s : Spot} {cancelRequested : Bool} (harmed : s.armed = false)
    (hopen : s.finished = false) (hphase : s.phase.early = true)
    (hmirr : s.nodes.mirrored = true → s.nodes.sourceSession = true)
    (hguest : s.nodes.onTarget = true ∨ s.nodes.quiesced = false) : (Prog.reap cancelRequested).endsWell s = true := by
  have hclean := clean_after_aborts hmirr hguest
  have hlookup : s.nodes.after .lookup = s.nodes := rfl
  simp [Prog.reap, Prog.endsWell, Spot.left, Nodes.left, Call.leaves, Spot.settled, harmed, hopen, hphase, hclean,
    hlookup]

private theorem endsWell_mirrorGuard {s : Spot} (harmed : s.armed = false) (hrec : s.reconciling = false)
    (hmirr : s.nodes.mirrored = true → s.nodes.sourceSession = true) (hguest : s.nodes.quiesced = false) :
    Prog.mirrorGuard.endsWell s = true := by
  have hclean := clean_after_aborts hmirr (.inr hguest)
  simp [Prog.mirrorGuard, Prog.endsWell, Spot.left, Nodes.left, Call.leaves, Spot.settled, harmed, hrec, hclean]

private theorem inv_stop {dropped : Bool} (hw : Inv w) (h : Orderly w (.stop dropped)) :
    Inv (w.step (.stop dropped)) := by
  refine ⟨?_, fun ha => (nomatch ha), hw.mirrored, hw.pending⟩
  cases hguard : dropped && w.armed with
  | true =>
    obtain ⟨hguest, hrec⟩ := hw.armed (Bool.and_eq_true_iff.mp hguard).2
    simp only [World.step, hguard]
    exact endsWell_mirrorGuard rfl hrec hw.mirrored hguest
  | false =>
    simp only [World.step, hguard]
    rcases h with hstop | hdrop | ⟨hopen, hphase⟩
    · have hends := hw.ends
      rw [hstop] at hends
      exact hends
    · exact absurd (hguard.symm.trans hdrop) (by decide)
    · simp [Prog.endsWell, Spot.settled, World.spot, hopen, hphase]

/-- A row that is open although the guest was sent has nothing left on the nodes. -/
private theorem clean_of_settled (hset : w.spot.settled = true) (hphase : w.op.phase.early = false) :
    w.nodes.clean = true := by
  simpa [Spot.settled, World.spot, hphase] using hset

private theorem inv_tick {idle : Nat} (hw : Inv w) (h : Orderly w (.tick idle)) : Inv (w.step (.tick idle)) := by
  cases hprog : w.prog with
  | stop =>
    obtain ⟨hexpire, hreaped⟩ := h hprog
    have hset : w.spot.settled = true := by
      have hends := hw.ends
      rwa [hprog] at hends
    simp only [World.step, hprog, hexpire]
    refine ⟨?_, fun ha => (nomatch ha), hw.mirrored, hw.pending⟩
    unfold Prog.reconcile
    split_ifs with hfin hwait hlate hreap
    · exact hset
    · exact (endsWell_resume (clean_of_settled hset (by rw [hwait]; rfl)) rfl).1
    · refine (endsWell_resume (clean_of_settled hset ?_) rfl).2
      simp only [List.mem_cons, List.not_mem_nil, or_false] at hlate
      rcases hlate with hlate | hlate | hlate <;> rw [hlate] <;> rfl
    · have hopen : w.op.finished = false := Bool.eq_false_iff.mpr hfin
      refine endsWell_reap rfl hopen ?_ hw.mirrored (hreaped hreap)
      simp only [Operation.reaped, localPhaseIsOpen, Bool.and_eq_true, Bool.or_eq_true, decide_eq_true_eq] at hreap
      rcases hreap.1.2 with hp | hp <;> simp [World.spot, hp, Phase.early]
    · exact hset
  | _ =>
    simp only [World.step, hprog]
    exact hw

private theorem inv_step {a : Step} (hw : Inv w) (h : Orderly w a) : Inv (w.step a) := by
  cases a with
  | act a =>
    cases a with
    | drive ch => exact inv_drive hw h
    | land i =>
      change Inv (w.land i)
      unfold World.land
      rw [hw.pending]
      exact hw
    | cancelRead =>
      change Inv w.cancelRead
      unfold World.cancelRead
      split_ifs
      · exact ⟨hw.ends, hw.armed, hw.mirrored, hw.pending⟩
      · exact hw
    | cancelWrite =>
      change Inv w.cancelWrite
      unfold World.cancelWrite
      split_ifs
      · exact hw
      · exact ⟨hw.ends, hw.armed, hw.mirrored, hw.pending⟩
    | cancelReturn =>
      change Inv w.cancelReturn
      unfold World.cancelReturn
      split_ifs
      · exact hw
      · exact ⟨hw.ends, hw.armed, hw.mirrored, hw.pending⟩
  | stop dropped => exact inv_stop hw h
  | tick idle => exact inv_tick hw h

private theorem Inv.noOrphan (hw : Inv w) : NoOrphan w := by
  intro hprog hfin
  have hends := hw.ends
  rw [hprog] at hends
  simpa [Prog.endsWell, Spot.settled, World.spot, hfin] using hends

/-- No orderly run of a driver and of the reconciler after it leaves anything of the move behind. -/
theorem no_orphan (d : Driver) (steps : List Step) (h : Each World.step Orderly d.start steps) :
    Along World.step NoOrphan d.start steps := by
  have hstart : Inv d.start := ⟨endsWell_start d, fun ha => (nomatch ha), fun hm => (nomatch hm), rfl⟩
  exact (along_of_each hstart (fun _ _ => inv_step) h).mono fun _ => Inv.noOrphan

/-! ### A cold copy that is not finished -/

def works : Step := .act (.drive ⟨true, .none⟩)

def abandonedCopy : List Step := [works, .stop false, .tick 660, works, works, works, works]

theorem guest_held_after_reap : ¬Along World.step NoOrphan Driver.coldCopy.start abandonedCopy := by
  intro h
  exact absurd (h.last rfl (by decide)) (by decide)

private theorem orderly_works (w : World) : Orderly w works := by
  unfold works Orderly
  cases w.prog with
  | call c ok err => exact .inl rfl
  | cleanup c next => rfl
  | _ => trivial

/-- A mirror that is abandoned while it is polled is taken down. -/
theorem no_orphan_mirror :
    Along World.step NoOrphan (Driver.liveMirror 1).start
      [works, works, works, works, .stop false, .tick 660, works, works, works, works] := by
  refine no_orphan (.liveMirror 1) _ ⟨orderly_works _, orderly_works _, orderly_works _, orderly_works _, ?_, ?_,
    orderly_works _, orderly_works _, orderly_works _, orderly_works _, trivial⟩
  · exact .inr (.inr ⟨rfl, rfl⟩)
  · exact fun _ => ⟨rfl, fun _ => .inr rfl⟩

end Kcore.Migration
