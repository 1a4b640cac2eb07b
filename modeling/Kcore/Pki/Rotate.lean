import Kcore.Lib.Run

/-!
# The rotation of a node's certificate

`rotate_once` on a node, one operation at a time: it reads the certificate, has a new pair of certificate and key
signed, keeps the bytes of both files, writes the key and the certificate, reads both again, and writes the old bytes
back if something is wrong. Two attempts can run at once, one of the timer and one that a controller drives, and the
process can stop between two operations. A write replaces its file as a whole or not at all. A pair is a number; the
pair 0 is on disk at the beginning.
-/

namespace Kcore.Pki.Rotate

open Machine

structure Disk where
  cert : Option Nat
  key : Option Nat
  deriving DecidableEq

/-- What an attempt does next. The bytes that were on disk before are in `prev`, and `keyOnly` says that the certificate
was not written. -/
inductive Stage where
  | idle
  | readCurrent
  | sign
  | readPrevCert (new : Nat)
  | readPrevKey (new : Nat) (prevCert : Option Nat)
  | writeKey (new : Nat) (prev : Disk)
  | writeCert (new : Nat) (prev : Disk)
  | verifyCert (new : Nat) (prev : Disk)
  | verifyKey (new : Nat) (prev : Disk) (cert : Option Nat)
  | restoreCert (prev : Disk) (keyOnly : Bool)
  | restoreKey (prev : Disk)
  deriving DecidableEq

/-- The files, with the pairs that were installed, in order, and those that were reported as installed. -/
structure Files where
  disk : Disk
  installs : List Nat
  reported : List Nat

/-- One operation of `rotate_once`, `install_chain`, `verify_installed` and `Rollback::restore`, which succeeds or
fails. The pair that is signed is `fresh`. An attempt that is not due ends in the same way as one that fails. -/
def advance (ok : Bool) (fresh : Nat) (f : Files) : Stage → Stage × Files
  | .idle => (.idle, f)
  | .readCurrent => (if ok then .sign else .idle, f)
  | .sign => (if ok then .readPrevCert fresh else .idle, f)
  | .readPrevCert new => (.readPrevKey new (if ok then f.disk.cert else none), f)
  | .readPrevKey new prevCert => (.writeKey new ⟨prevCert, if ok then f.disk.key else none⟩, f)
  | .writeKey new prev =>
    if ok then (.writeCert new prev, { f with disk := { f.disk with key := some new } }) else (.idle, f)
  | .writeCert new prev =>
    if ok then
      (.verifyCert new prev, { f with disk := { f.disk with cert := some new }, installs := f.installs ++ [new] })
    else (.restoreCert prev true, f)
  | .verifyCert new prev => (if ok then .verifyKey new prev f.disk.cert else .restoreCert prev false, f)
  | .verifyKey new prev cert =>
    if ok ∧ cert = some new ∧ f.disk.key = some new then (.idle, { f with reported := f.reported ++ [new] })
    else (.restoreCert prev false, f)
  | .restoreCert prev _ =>
    match prev.cert with
    | none => (.restoreKey prev, f)
    | some c => if ok then (.restoreKey prev, { f with disk := { f.disk with cert := some c } }) else (.idle, f)
  | .restoreKey prev =>
    match prev.key with
    | none => (.idle, f)
    | some k => (.idle, if ok then { f with disk := { f.disk with key := some k } } else f)

/-- The timer of the node, or a controller by `RotateNodeCert`, whose attempts wait for each other. -/
inductive Driver where
  | timer
  | controller
  deriving DecidableEq

def Driver.other : Driver → Driver
  | .timer => .controller
  | .controller => .timer

structure Attempt where
  stage : Stage
  failed : Bool

structure Node where
  files : Files
  nextPair : Nat
  attempt : Driver → Attempt

inductive Action where
  | start (who : Driver)
  | operation (who : Driver) (ok : Bool)
  | crash

def Node.set (s : Node) (who : Driver) (a : Attempt) : Node :=
  { s with attempt := fun d => if d = who then a else s.attempt d }

def step (s : Node) : Action → Node
  | .start who => if (s.attempt who).stage = .idle then s.set who ⟨.readCurrent, false⟩ else s
  | .operation who ok =>
    let a := s.attempt who
    let next := advance ok s.nextPair s.files a.stage
    { s with files := next.2, nextPair := s.nextPair + 1 }.set who ⟨next.1, a.failed || !ok⟩
  | .crash => { s with attempt := fun _ => ⟨.idle, false⟩ }

def Node.initial : Node := ⟨⟨⟨some 0, some 0⟩, [], []⟩, 1, fun _ => ⟨.idle, false⟩⟩

def Stage.inFiles : Stage → Bool
  | .idle | .readCurrent | .sign | .readPrevCert _ => false
  | _ => true

def Stage.halfway : Stage → Bool
  | .writeCert _ _ | .restoreCert _ true | .restoreKey _ => true
  | _ => false

/-- Two attempts do not work on the files at once, an attempt has one operation that fails at most, and the process does
not stop between the writes of a key and of its certificate. -/
def Apart (s : Node) : Action → Prop
  | .start _ => True
  | .operation who ok => (ok = false → (s.attempt who).failed = false) ∧
      ((s.attempt who).stage.inFiles = false → (advance ok s.nextPair s.files (s.attempt who).stage).1.inFiles = true →
        (s.attempt who.other).stage.inFiles = false)
  | .crash => ∀ who, (s.attempt who).stage.halfway = false

/-- The pair `m` was installed, and `n` is this pair or one that was installed after it. -/
def Later (installs : List Nat) (m n : Nat) : Prop := ∃ before after, installs = before ++ m :: after ∧ n ∈ m :: after

def Standing (f : Files) (n : Nat) : Prop := ∀ m ∈ f.reported, Later f.installs m n

def Settled (f : Files) : Prop := ∃ n, f.disk = ⟨some n, some n⟩ ∧ Standing f n

/-! ### One attempt -/

/-- What is on disk while an attempt works on the files alone. After an operation has failed the other ones succeed, and
before that the attempt has the bytes of the pair `n` that was there. -/
def Holds (f : Files) (failed : Bool) : Stage → Prop
  | .idle | .readCurrent | .sign | .readPrevCert _ => Settled f
  | .readPrevKey _ prevCert => ∃ n, f.disk = ⟨some n, some n⟩ ∧ Standing f n ∧ (failed = false → prevCert = some n)
  | .writeKey _ prev => ∃ n, f.disk = ⟨some n, some n⟩ ∧ Standing f n ∧ (failed = false → prev = ⟨some n, some n⟩)
  | .writeCert new prev => ∃ n, f.disk = ⟨some n, some new⟩ ∧ Standing f n ∧ (failed = false → prev = ⟨some n, some n⟩)
  | .verifyCert new prev => f.disk = ⟨some new, some new⟩ ∧ new ∈ f.installs ∧ Standing f new ∧
      (failed = false → ∃ n, Standing f n ∧ prev = ⟨some n, some n⟩)
  | .verifyKey new prev cert => f.disk = ⟨some new, some new⟩ ∧ new ∈ f.installs ∧ Standing f new ∧ cert = some new ∧
      (failed = false → ∃ n, Standing f n ∧ prev = ⟨some n, some n⟩)
  | .restoreCert prev keyOnly => failed = true ∧ (∃ n, Standing f n ∧ prev = ⟨some n, some n⟩) ∧
      (keyOnly = false → Settled f)
  | .restoreKey prev => failed = true ∧ ∃ n, Standing f n ∧ prev = ⟨some n, some n⟩ ∧ f.disk.cert = some n

variable {installs : List Nat} {f : Files} {stage : Stage}

theorem Later.append {m n : Nat} (h : Later installs m n) (new : Nat) : Later (installs ++ [new]) m n := by
  obtain ⟨before, after, rfl, hn⟩ := h
  refine ⟨before, after ++ [new], by simp, ?_⟩
  rw [← List.cons_append]
  exact List.mem_append_left _ hn

theorem Later.append_new {m n : Nat} (h : Later installs m n) (new : Nat) : Later (installs ++ [new]) m new := by
  obtain ⟨before, after, rfl, -⟩ := h
  exact ⟨before, after ++ [new], by simp, by simp⟩

theorem Later.self {m : Nat} (h : m ∈ installs) : Later installs m m := by
  obtain ⟨before, after, rfl⟩ := List.append_of_mem h
  exact ⟨before, after, rfl, List.mem_cons_self⟩

theorem holds_advance {failed ok : Bool} (fresh : Nat) (h : Holds f failed stage) (hok : ok = false → failed = false) :
    Holds (advance ok fresh f stage).2 (failed || !ok) (advance ok fresh f stage).1 := by
  cases stage with
  | idle => exact h
  | readCurrent | sign => cases ok <;> exact h
  | readPrevCert new =>
    obtain ⟨n, hdisk, hn⟩ := h
    refine ⟨n, hdisk, hn, fun hall => ?_⟩
    cases ok with
    | true => simp [hdisk]
    | false => simp at hall
  | readPrevKey new prevCert =>
    obtain ⟨n, hdisk, hn, hprev⟩ := h
    refine ⟨n, hdisk, hn, fun hall => ?_⟩
    cases ok with
    | true => simp_all
    | false => simp at hall
  | writeKey new prev =>
    obtain ⟨n, hdisk, hn, hprev⟩ := h
    cases ok with
    | true => exact ⟨n, by simp [advance, hdisk], hn, fun hall => hprev (by simpa using hall)⟩
    | false => exact ⟨n, hdisk, hn⟩
  | writeCert new prev =>
    obtain ⟨n, hdisk, hn, hprev⟩ := h
    cases ok with
    | true =>
      -- from here on the new pair counts as installed, behind all that were reported
      refine ⟨by simp [advance, hdisk], by simp [advance], fun m hm => (hn m hm).append_new new, fun hall => ?_⟩
      exact ⟨n, fun m hm => (hn m hm).append new, hprev (by simpa using hall)⟩
    | false => exact ⟨by simp, ⟨n, hn, hprev (hok rfl)⟩, fun hall => nomatch hall⟩
  | verifyCert new prev =>
    obtain ⟨hdisk, hmem, hnew, hprev⟩ := h
    cases ok with
    | true => exact ⟨hdisk, hmem, hnew, by simp [hdisk], fun hall => hprev (by simpa using hall)⟩
    | false => exact ⟨by simp, hprev (hok rfl), fun _ => ⟨new, hdisk, hnew⟩⟩
  | verifyKey new prev cert =>
    obtain ⟨hdisk, hmem, hnew, hcert, hprev⟩ := h
    cases ok with
    | true =>
      simp only [advance, hcert, hdisk, and_self, if_true]
      refine ⟨new, rfl, fun m hm => ?_⟩
      rcases List.mem_append.mp hm with hm | hm
      · exact hnew m hm
      · rw [List.mem_singleton.mp hm]
        exact .self hmem
    | false => exact ⟨by simp, hprev (hok rfl), fun _ => ⟨new, hdisk, hnew⟩⟩
  | restoreCert prev keyOnly =>
    obtain ⟨hfailed, ⟨n, hn, rfl⟩, -⟩ := h
    cases ok with
    | true => exact ⟨by simp [hfailed], n, hn, rfl, rfl⟩
    -- it would be the second operation of the attempt that fails
    | false => exact nomatch hfailed.symm.trans (hok rfl)
  | restoreKey prev =>
    obtain ⟨hfailed, n, hn, rfl, hcert⟩ := h
    cases ok with
    | true => exact ⟨n, by simp [advance, hcert], hn⟩
    | false => exact nomatch hfailed.symm.trans (hok rfl)

theorem Holds.settled {failed : Bool} (h : Holds f failed stage) (hstage : stage.halfway = false) : Settled f := by
  cases stage with
  | idle | readCurrent | sign | readPrevCert _ => exact h
  | readPrevKey _ _ | writeKey _ _ =>
    obtain ⟨n, hdisk, hn, -⟩ := h
    exact ⟨n, hdisk, hn⟩
  | writeCert _ _ | restoreKey _ => exact nomatch hstage
  | verifyCert new _ | verifyKey new _ _ => exact ⟨new, h.1, h.2.2.1⟩
  | restoreCert prev keyOnly =>
    cases keyOnly with
    | true => exact nomatch hstage
    | false => exact h.2.2 rfl

/-! ### Runs -/

theorem holds_of_settled {failed : Bool} (h : Settled f) (hstage : stage.inFiles = false) : Holds f failed stage := by
  cases stage <;> first | exact h | exact nomatch hstage

theorem not_halfway (h : stage.inFiles = false) : stage.halfway = false := by
  cases stage <;> first | rfl | exact nomatch h

theorem files_advance {ok : Bool} {fresh : Nat} (h : stage.inFiles = false) : (advance ok fresh f stage).2 = f := by
  cases stage <;> first | rfl | exact nomatch h

/-- One attempt at most works on the files, and each attempt finds them as it expects when the other one does not. -/
structure Orderly (s : Node) : Prop where
  alone : ∀ who, (s.attempt who).stage.inFiles = true → (s.attempt who.other).stage.inFiles = false
  holds : ∀ who, (s.attempt who.other).stage.inFiles = false → Holds s.files (s.attempt who).failed (s.attempt who).stage

theorem Orderly.settled {s : Node} (h : Orderly s) (hstages : ∀ who, (s.attempt who).stage.halfway = false) :
    Settled s.files := by
  cases htimer : (s.attempt .timer).stage.inFiles with
  | false => exact (h.holds .controller htimer).settled (hstages _)
  | true => exact (h.holds .timer (h.alone .timer htimer)).settled (hstages _)

theorem set_self (s : Node) (who : Driver) (a : Attempt) : (s.set who a).attempt who = a := if_pos rfl

theorem set_other (s : Node) (who : Driver) (a : Attempt) : (s.set who a).attempt who.other = s.attempt who.other := by
  cases who <;> rfl

theorem other_other (who : Driver) : who.other.other = who := by cases who <;> rfl

theorem forall_driver {P : Driver → Prop} (who : Driver) (h : P who) (h' : P who.other) (d : Driver) : P d := by
  cases who <;> cases d <;> assumption

/-- An attempt moves on: it works on the files as it expects to, or the other one does and it leaves them alone. -/
theorem Orderly.set {s : Node} {files : Files} {who : Driver} {a : Attempt} (h : Orderly s) (nextPair : Nat)
    (hholds : (s.attempt who.other).stage.inFiles = false → Holds files a.failed a.stage)
    (hleaves : (s.attempt who.other).stage.inFiles = true → files = s.files ∧ a.stage.inFiles = false) :
    Orderly ({ s with files, nextPair }.set who a) := by
  have hself := set_self { s with files, nextPair } who a
  have hother := set_other { s with files, nextPair } who a
  constructor
  · refine forall_driver who ?_ ?_
    · rw [hself, hother]
      intro ha
      refine Bool.eq_false_iff.mpr fun hin => ?_
      rw [(hleaves hin).2] at ha
      exact nomatch ha
    · rw [other_other, hself, hother]
      exact fun hin => (hleaves hin).2
  · refine forall_driver who ?_ ?_
    · rw [hself, hother]
      exact hholds
    · rw [other_other, hself, hother]
      intro ha
      cases hin : (s.attempt who.other).stage.inFiles with
      | true =>
        have hout := h.alone who.other hin
        change Holds files _ _
        rw [(hleaves hin).1]
        exact h.holds who.other hout
      | false => exact holds_of_settled ((hholds hin).settled (not_halfway ha)) hin

theorem orderly_step {s : Node} {a : Action} (h : Orderly s) (ha : Apart s a) : Orderly (step s a) := by
  cases a with
  | start who =>
    simp only [step]
    split
    · next hidle =>
      refine h.set s.nextPair (fun hout => ?_) fun _ => ⟨rfl, rfl⟩
      exact (h.holds who hout).settled (by rw [hidle]; rfl)
    · exact h
  | operation who ok =>
    refine h.set _ (fun hout => holds_advance s.nextPair (h.holds who hout) ha.1) fun hin => ?_
    have hstage : (s.attempt who).stage.inFiles = false := by
      have := h.alone who.other hin
      rwa [other_other] at this
    refine ⟨files_advance hstage, Bool.eq_false_iff.mpr fun henters => ?_⟩
    have := ha.2 hstage henters
    rw [hin] at this
    exact nomatch this
  | crash =>
    have hsettled := h.settled ha
    exact ⟨fun _ hin => (nomatch hin), fun _ _ => hsettled⟩

/-- Whenever no attempt works on the files, and so after every stop of the process, they are a matching pair that is not
older than one that was reported. -/
theorem rotation_keeps_identity (acts : List Action) (h : Each step Apart .initial acts) :
    Along step (fun s => (∀ who, (s.attempt who).stage.inFiles = false) → Settled s.files) .initial acts := by
  have hinitial : Settled Node.initial.files := ⟨0, rfl, fun m hm => absurd hm List.not_mem_nil⟩
  have hrun : Along step Orderly .initial acts :=
    along_of_each ⟨fun _ hin => (nomatch hin), fun _ _ => hinitial⟩ (fun _ _ => orderly_step) h
  exact hrun.mono fun s hs hquiet => hs.settled fun who => not_halfway (hquiet who)

instance (P : Driver → Prop) [DecidablePred P] : Decidable (∀ who, P who) :=
  decidable_of_iff (P .timer ∧ P .controller) ⟨fun h => forall_driver .timer h.1 h.2, fun h => ⟨h _, h _⟩⟩

instance (s : Node) : (a : Action) → Decidable (Apart s a)
  | .start _ => inferInstanceAs (Decidable True)
  | .operation who ok => inferInstanceAs (Decidable ((ok = false → (s.attempt who).failed = false) ∧
      ((s.attempt who).stage.inFiles = false → (advance ok s.nextPair s.files (s.attempt who).stage).1.inFiles = true →
        (s.attempt who.other).stage.inFiles = false)))
  | .crash => inferInstanceAs (Decidable (∀ who, (s.attempt who).stage.halfway = false))

def attemptOf (who : Driver) (n : Nat) : List Action := .start who :: List.replicate n (.operation who true)

theorem two_rotations_in_turn :
    (run step .initial (attemptOf .timer 8 ++ attemptOf .controller 8)).files.reported = [2, 10] ∧
    Settled (run step .initial (attemptOf .timer 8 ++ attemptOf .controller 8)).files :=
  ⟨by decide, (rotation_keeps_identity (attemptOf .timer 8 ++ attemptOf .controller 8) (by decide)).last (by decide)⟩

/-- The process stops after the key was written: the certificate on disk is of the old pair, the key of the new one. -/
theorem crash_between_writes :
    (∀ who, ((run step .initial (attemptOf .timer 5 ++ [.crash])).attempt who).stage = .idle) ∧
    ¬ Settled (run step .initial (attemptOf .timer 5 ++ [.crash])).files := by
  refine ⟨by decide, ?_⟩
  rintro ⟨n, hdisk, -⟩
  have hfiles : (run step .initial (attemptOf .timer 5 ++ [.crash])).files.disk = ⟨some 0, some 2⟩ := by decide
  rw [hfiles] at hdisk
  injection hdisk with hcert hkey
  rw [← Option.some.inj hcert] at hkey
  exact nomatch hkey

end Kcore.Pki.Rotate
