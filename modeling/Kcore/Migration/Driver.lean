/-!
# The drivers of a migration

A migration is one row of `vm_operations` and a driver, which makes calls to the two nodes and writes the phase of the
row. The drivers are programs: each call to a node goes on in one way if it succeeds and in another if it fails, a
write of the phase that fails is passed over, and the row is read again where the driver looks for a cancel request.
There are three of them: the live migration on shared storage, the copy of a stopped guest's disk, and the mirror of a
running guest's disk that ends in a live migration.
-/

namespace Kcore.Migration

inductive Phase where
  | preparing
  | mirrorSyncing
  | copying
  | sending
  | waiting
  | reassigned
  | finalizingDest
  | finalizingSource
  | done
  | failed
  | cancelled
  deriving DecidableEq

structure Operation where
  phase : Phase
  cancelRequested : Bool
  sendSucceeded : Bool
  finished : Bool

def Operation.update (op : Operation) (phase : Phase) (sendSucceeded : Option Bool) (finished : Bool) : Operation :=
  { op with phase, sendSucceeded := sendSucceeded.getD op.sendSucceeded, finished := op.finished || finished }

def localPhaseIsOpen (phase : Phase) : Bool := phase = .mirrorSyncing || phase = .copying

def cancelAllowed (phase : Phase) (sendSucceeded : Bool) : Bool :=
  if sendSucceeded then false else phase = .preparing || localPhaseIsOpen phase

inductive Call where
  | lookup
  | client
  | checkCpu
  | pushSource
  | pushTarget
  | prepareReceive
  | prepared
  | abortReceive
  | send
  | waitReceive
  | received
  | finalizeDest
  | finalizeSource
  | prepareTarget
  | startMirror
  | mirrorStatus
  | healthy
  | inSync
  | commit
  | copy
  | applyTarget
  | quiesce
  | unquiesce
  | abortSource
  | abortTarget
  | releaseSource
  | releaseTarget
  deriving DecidableEq

/-- What is left to do. `cleanup` is a call whose failure is passed over, `look` reads `cancel_requested`, for the last
time if `last` is set, `ifMoved` reads the node of the VM row, and between `arm` and `disarm` the mirror is taken down
if the request is dropped. -/
inductive Prog where
  | call (c : Call) (ok err : Prog)
  | cleanup (c : Call) (next : Prog)
  | write (phase : Phase) (sendSucceeded : Option Bool) (finished : Bool) (next : Prog)
  | look (last : Bool) (cancelled next : Prog)
  | reassign (ok err : Prog)
  | ifMoved (moved next : Prog)
  | arm (next : Prog)
  | disarm (next : Prog)
  | stop

namespace Prog

def either (c : Call) (next : Prog) : Prog := .call c next next

/-! ### `live_migrate_vm` -/

section

variable (ok sentErr err : Prog)

def finalize : Prog :=
  let fail := .write .failed (some true) true sentErr
  let done := .write .done (some true) true ok
  let releaseSource := .call .finalizeSource done (.call .finalizeSource done (.call .finalizeSource done fail))
  let adopt := .call .finalizeDest (.write .finalizingSource (some true) false releaseSource) fail
  let configure := .call .pushSource (.write .finalizingDest (some true) false (.call .pushTarget adopt fail)) fail
  .write .reassigned (some true) false (.reassign configure fail)

def send : Prog :=
  let receive := .call .waitReceive (.call .received (finalize ok sentErr) (.write .failed (some true) true sentErr))
    (.write .failed (some true) true sentErr)
  .write .sending none false (.call .send (.write .waiting (some true) false receive)
    (either .abortReceive (.write .failed (some false) true err)))

def liveMigrate : Prog :=
  let fail := .write .failed (some false) true err
  let cancelled := either .abortReceive (.write .cancelled (some false) true err)
  let prepare := .call .prepareReceive (.call .prepared (.look true cancelled (send ok sentErr err)) fail)
    (either .abortReceive fail)
  .call .client (.call .client (.call .checkCpu (.call .pushTarget (.call .client prepare fail) fail) fail) err) err

end

/-- The live migration on shared storage, after the row was inserted in phase `Preparing`. -/
def shared : Prog := .call .lookup (liveMigrate .stop .stop .stop) .stop

/-! ### `cold_copy_local_disk` -/

def giveUp (phase : Phase) : Prog :=
  .cleanup .abortSource (.cleanup .abortTarget (.cleanup .unquiesce (.write phase (some false) true .stop)))

def coldReassign : Prog :=
  let failed := .ifMoved (.write .failed (some false) true .stop) (giveUp .failed)
  let done := .cleanup .releaseSource (.cleanup .unquiesce (.write .done (some false) true .stop))
  .reassign (either .pushSource (.call .applyTarget done failed)) failed

/-- The cold copy, after the row was inserted in phase `Copying`. -/
def coldCopy : Prog :=
  let fail := .cleanup .abortTarget (.cleanup .unquiesce (.write .failed (some false) true .stop))
  let commit := .call .client (.call .commit (.call .releaseTarget coldReassign (giveUp .failed)) (giveUp .failed))
    (giveUp .failed)
  let copy := .call .client (.call .copy (.look true (giveUp .cancelled) commit) fail) fail
  .call .quiesce (.call .prepareTarget copy fail) (.cleanup .unquiesce (.write .failed (some false) true .stop))

/-! ### `live_mirror_local_disk` -/

def dropMirror : Prog :=
  .cleanup .abortSource (.cleanup .abortTarget (.write .failed (some false) true .stop))

/-- The migration of the memory once the mirror is in sync: the row that is open is taken over. -/
def sendMirrored : Prog :=
  let ok := .cleanup .releaseTarget (.cleanup .releaseSource .stop)
  let sentErr := .cleanup .releaseTarget (.cleanup .abortSource .stop)
  let err := .call .abortSource (.cleanup .abortTarget .stop) .stop
  .call .lookup (.write .preparing (some false) false (liveMigrate ok sentErr err)) err

/-- The loop that waits for the mirror, for at most `rounds` rounds within the time limit, after `errors` answers
failed. -/
def mirrorLoop : (rounds errors : Nat) → Prog
  | 0, _ => .disarm dropMirror
  | rounds + 1, errors =>
    let cancelled := .disarm (.call .abortSource (.cleanup .abortTarget (.write .cancelled (some false) true .stop))
      (.cleanup .abortTarget .stop))
    let synced := .call .client (.call .commit (.disarm sendMirrored) (.disarm dropMirror)) (.disarm dropMirror)
    let answered := .write .mirrorSyncing none false
      (.call .healthy (.call .inSync synced (mirrorLoop rounds 0)) (.disarm dropMirror))
    let unanswered := if 2 ≤ errors then .disarm dropMirror else either .client (mirrorLoop rounds (errors + 1))
    .look false cancelled (.call .mirrorStatus answered unanswered)

/-- The live mirror, after the row was inserted in phase `MirrorSyncing`. -/
def liveMirror (rounds : Nat) : Prog :=
  let fail := .cleanup .abortTarget (.write .failed (some false) true .stop)
  .call .prepareTarget (.call .client (.call .startMirror (.arm (mirrorLoop rounds 0)) dropMirror) fail) fail

def mirrorGuard : Prog :=
  .call .abortSource (.cleanup .abortTarget (.write .cancelled (some false) true .stop)) .stop

end Prog

/-! ### Running a driver -/

structure Nodes where
  sourceSession : Bool
  targetSession : Bool
  mirrored : Bool
  quiesced : Bool
  onTarget : Bool
  deriving DecidableEq

def Nodes.after (n : Nodes) : Call → Nodes
  | .quiesce => { n with quiesced := true }
  | .unquiesce => { n with quiesced := false }
  | .prepareTarget => { n with targetSession := true }
  | .startMirror => { n with sourceSession := true, mirrored := true }
  | .copy => { n with sourceSession := true }
  | .abortSource | .releaseSource => if n.sourceSession then { n with sourceSession := false, mirrored := false } else n
  | .abortTarget | .releaseTarget => { n with targetSession := false }
  | _ => n

/-- `start_mirror` has reloaded the mapping but not stored its session, or an abort has not removed it. -/
def Nodes.partly (n : Nodes) : Call → Nodes
  | .startMirror => { n with mirrored := true }
  | .abortSource | .releaseSource => if n.sourceSession then { n with mirrored := false } else n
  | _ => n

/-- How much a call that fails has done on the node. The node goes on with a call whose connection is lost, so that all
of it may also be done later. -/
inductive Effect where
  | none
  | part
  | whole
  | later
  deriving DecidableEq

def Nodes.left (n : Nodes) (c : Call) : Effect → Nodes
  | .part => n.partly c
  | .whole => n.after c
  | .none | .later => n

/-- `pending` has the calls whose effect is still to come. `passed` says that the driver went on after its last look.
`allowed` and `written` count the cancel requests that have passed their check and those that have written as well.
`accepted` says that one of them has returned success, and `late` that the guest was sent or reassigned after that. -/
structure World where
  op : Operation
  prog : Prog
  nodes : Nodes
  pending : List Call
  armed : Bool
  reconciling : Bool
  passed : Bool
  allowed : Nat
  written : Nat
  accepted : Bool
  late : Bool

structure Chance where
  ok : Bool
  effect : Effect

def Chance.delayed (ch : Chance) (c : Call) : List Call := if !ch.ok && ch.effect = .later then [c] else []

namespace World

def drive (w : World) (ch : Chance) : World :=
  match w.prog with
  | .call c ok err =>
    -- a call may have its effect and fail all the same
    { w with
      nodes := if ch.ok then w.nodes.after c else w.nodes.left c ch.effect
      pending := w.pending ++ ch.delayed c
      prog := if ch.ok then ok else err
      late := w.late || (w.accepted && c = .send && (ch.ok || ch.effect ≠ .none)) }
  | .cleanup c next =>
    { w with
      nodes := if ch.ok then w.nodes.after c else w.nodes.left c ch.effect
      pending := w.pending ++ ch.delayed c
      prog := next }
  | .write phase send finished next =>
    { w with op := if ch.ok then w.op.update phase send finished else w.op, prog := next }
  | .look last cancelled next =>
    let found := ch.ok && w.op.cancelRequested
    { w with prog := if found then cancelled else next, passed := w.passed || (last && !found) }
  | .reassign ok err =>
    { w with
      nodes := if ch.ok then { w.nodes with onTarget := true } else w.nodes
      prog := if ch.ok then ok else err
      late := w.late || (w.accepted && ch.ok) }
  | .ifMoved moved next => { w with prog := if ch.ok && w.nodes.onTarget then moved else next }
  | .arm next => { w with armed := true, prog := next }
  | .disarm next => { w with armed := false, prog := next }
  | .stop => w

def land (w : World) (i : Nat) : World :=
  match w.pending[i]? with
  | none => w
  | some c =>
    { w with
      nodes := w.nodes.after c
      pending := w.pending.eraseIdx i
      late := w.late || (w.accepted && c = .send) }

def cancelRead (w : World) : World :=
  if !w.op.finished && cancelAllowed w.op.phase w.op.sendSucceeded then { w with allowed := w.allowed + 1 } else w

/-- `request_cancel_vm_operation`: a finished row is not written, and this is not noticed. -/
def cancelWrite (w : World) : World :=
  if w.allowed = 0 then w
  else
    { w with
      op := { w.op with cancelRequested := w.op.cancelRequested || !w.op.finished }
      allowed := w.allowed - 1
      written := w.written + 1 }

def cancelReturn (w : World) : World :=
  if w.written = 0 then w else { w with written := w.written - 1, accepted := true }

end World

inductive Act where
  | drive (ch : Chance)
  | land (i : Nat)
  | cancelRead
  | cancelWrite
  | cancelReturn

def World.act (w : World) : Act → World
  | .drive ch => w.drive ch
  | .land i => w.land i
  | .cancelRead => w.cancelRead
  | .cancelWrite => w.cancelWrite
  | .cancelReturn => w.cancelReturn

inductive Driver where
  | shared
  | coldCopy
  | liveMirror (rounds : Nat)

def Driver.prog : Driver → Prog
  | .shared => .shared
  | .coldCopy => .coldCopy
  | .liveMirror rounds => .liveMirror rounds

def Driver.phase : Driver → Phase
  | .shared => .preparing
  | .coldCopy => .copying
  | .liveMirror _ => .mirrorSyncing

def Driver.start (d : Driver) : World where
  op := ⟨d.phase, false, false, false⟩
  prog := d.prog
  nodes := ⟨false, false, false, false, false⟩
  pending := []
  armed := false
  reconciling := false
  passed := false
  allowed := 0
  written := 0
  accepted := false
  late := false

end Kcore.Migration
