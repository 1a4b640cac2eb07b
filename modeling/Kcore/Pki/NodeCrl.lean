import Kcore.Pki.Programs

/-!
# Revocation on a node

A node fetches the CRL from the first of the controllers that gives it one that verifies, and replaces its set of
revoked serials by the list, whatever the list says about its age. When no CRL is to be had, it asks the OCSP responder
about the peers it has seen. The history of a run has the CRLs that were applied and the reports of revoked serials,
each with the `thisUpdate` of the CRL or of the OCSP answer that it was made by.
-/

namespace Kcore.Pki

open Machine

structure CrlSummary where
  serials : List Nat
  thisUpdate : Int
  nextUpdate : Option Int

inductive OcspStatus where
  | good
  | revoked (reason : Int) (revokedAt : Int)
  | unknown

structure NodeSnapshot extends Snapshot where
  crlNextUpdate : Option Int
  ocspGood : List (Nat × Int)
  seen : List Nat

namespace NodeSnapshot

def new : NodeSnapshot := ⟨⟨[], none⟩, none, [], []⟩

def apply (n : NodeSnapshot) (crl : CrlSummary) (now : Int) : NodeSnapshot :=
  { n with serials := crl.serials, refreshedAt := some now, crlNextUpdate := crl.nextUpdate }

def applyOcsp (n : NodeSnapshot) (serial : Nat) (status : OcspStatus) (now : Int) : NodeSnapshot :=
  let others := n.ocspGood.filter (·.1 ≠ serial)
  match status with
  | .good => { n with ocspGood := (serial, now) :: others }
  | .revoked _ _ => { n with serials := n.serials.insert serial, ocspGood := others }
  | .unknown => n

def maxSeenSerials : Nat := 256

def noteSeen (n : NodeSnapshot) (serial : Nat) : NodeSnapshot :=
  if serial ∈ n.seen ∨ maxSeenSerials ≤ n.seen.length then n else { n with seen := serial :: n.seen }

/-- `check`. An answer `good` that is not too old stands in for a list that is. -/
def check (policy : Policy) (n : NodeSnapshot) (serial : Nat) (now : Int) : Decision × NodeSnapshot :=
  let decision := decideRevoked policy n.toSnapshot serial now
  let goodAt := n.ocspGood.lookup serial
  (match decision with
    | .stale age => if goodAt.any (now - · ≤ policy.maxStaleness) then .allow else .stale age
    | other => other,
    n.noteSeen serial)

end NodeSnapshot

inductive CrlAnswer where
  | unreachable (e : String)
  | rpcFailed (e : String)
  | noCrl (message : String)
  | rejected (e : String)
  | verified (crl : CrlSummary)

def CrlAnswer.outcome (endpoint : String) : CrlAnswer → Except String CrlSummary
  | .unreachable e => .error ("connecting to " ++ endpoint ++ ": " ++ e)
  | .rpcFailed e => .error ("GetCrl on " ++ endpoint ++ ": " ++ e)
  | .noCrl message => .error ("controller " ++ endpoint ++ " has no CRL: " ++ message)
  | .rejected e => .error ("CRL from " ++ endpoint ++ " rejected: " ++ e)
  | .verified crl => .ok crl

def firstVerified (lastErr : String) : List (String × CrlAnswer) → Except String CrlSummary
  | [] => .error lastErr
  | (endpoint, answer) :: rest =>
    match answer.outcome endpoint with
    | .ok crl => .ok crl
    | .error e => firstVerified e rest

def fetchCrl (hasCa : Bool) (answers : List (String × CrlAnswer)) : Except String CrlSummary :=
  if hasCa then firstVerified "no controller endpoints configured" answers
  else .error "no CA material configured; cannot verify a CRL"

structure OcspAnswer where
  status : OcspStatus
  thisUpdate : Int

/-- One pass of the loop: what the controllers answer and what the responder says of the serials it knows, if it is
configured. -/
structure Tick where
  now : Int
  hasCa : Bool
  controllers : List (String × CrlAnswer)
  ocsp : Option (List (Nat × OcspAnswer))

def Tick.answer (t : Tick) (serial : Nat) : Option OcspAnswer :=
  if t.hasCa then t.ocsp.bind (·.lookup serial) else none

def askOcsp (t : Tick) (n : NodeSnapshot) (serial : Nat) : NodeSnapshot :=
  match t.answer serial with
  | some answer => n.applyOcsp serial answer.status t.now
  | none => n

def NodeSnapshot.tick (n : NodeSnapshot) (t : Tick) : NodeSnapshot :=
  match fetchCrl t.hasCa t.controllers with
  | .ok crl => n.apply crl t.now
  | .error _ => n.seen.foldl (askOcsp t) n

/-! ### Runs -/

structure Report where
  serial : Nat
  time : Int
  deriving DecidableEq

def CrlSummary.reports (crl : CrlSummary) : List Report := crl.serials.map (⟨·, crl.thisUpdate⟩)

def Tick.report (t : Tick) (serial : Nat) : Option Report :=
  match t.answer serial with
  | some ⟨.revoked _ _, thisUpdate⟩ => some ⟨serial, thisUpdate⟩
  | _ => none

structure NodeRun where
  node : NodeSnapshot
  crls : List CrlSummary
  reports : List Report

inductive NodeEvent where
  | tick (t : Tick)
  | check (serial : Nat) (now : Int)

def NodeRun.step (policy : Policy) (r : NodeRun) : NodeEvent → NodeRun
  | .tick t =>
    match fetchCrl t.hasCa t.controllers with
    | .ok crl => ⟨r.node.tick t, r.crls ++ [crl], r.reports ++ crl.reports⟩
    | .error _ => ⟨r.node.tick t, r.crls, r.reports ++ r.node.seen.filterMap t.report⟩
  | .check serial now => { r with node := (r.node.check policy serial now).2 }

def Report.Withdrawn (report : Report) (crls : List CrlSummary) : Prop :=
  ∃ crl ∈ crls, report.time < crl.thisUpdate ∧ report.serial ∉ crl.serials

instance (report : Report) (crls : List CrlSummary) : Decidable (report.Withdrawn crls) :=
  inferInstanceAs (Decidable (∃ crl ∈ crls, report.time < crl.thisUpdate ∧ report.serial ∉ crl.serials))

/-- No check lets a peer pass whose serial was reported and not withdrawn. -/
def Refuses (policy : Policy) (r : NodeRun) : Prop :=
  ∀ report ∈ r.reports, report.Withdrawn r.crls ∨ ∀ now, (r.node.check policy report.serial now).1.isAllowed = false

def NoOlderCrl (r : NodeRun) : NodeEvent → Prop
  | .tick t =>
    match fetchCrl t.hasCa t.controllers with
    | .ok crl => ∀ report ∈ r.reports, report.Withdrawn (r.crls ++ [crl]) ∨ report.serial ∈ crl.serials
    | .error _ => True
  | .check _ _ => True

section Checks

variable {policy : Policy} {n : NodeSnapshot} {serial : Nat}

theorem check_of_mem (h : serial ∈ n.serials) (now : Int) : (n.check policy serial now).1 = .revoked serial := by
  unfold NodeSnapshot.check
  rw [decideRevoked_of_mem h now]

theorem check_of_not_mem {loadedAt : Int} (h : serial ∉ n.serials) (hloaded : n.refreshedAt = some loadedAt) :
    (n.check policy serial (loadedAt + policy.maxStaleness)).1 = .allow := by
  have hage : loadedAt + policy.maxStaleness - loadedAt = policy.maxStaleness := by omega
  have hdecide : decideRevoked policy n.toSnapshot serial (loadedAt + policy.maxStaleness) = .allow := by
    simp [decideRevoked, h, hloaded, hage]
  unfold NodeSnapshot.check
  rw [hdecide]

theorem serials_noteSeen : (n.noteSeen serial).serials = n.serials := by
  unfold NodeSnapshot.noteSeen
  split <;> rfl

theorem refreshedAt_noteSeen : (n.noteSeen serial).refreshedAt = n.refreshedAt := by
  unfold NodeSnapshot.noteSeen
  split <;> rfl

end Checks

section Ocsp

variable {t : Tick} {n : NodeSnapshot} {serial : Nat}

theorem refreshedAt_askOcsp : (askOcsp t n serial).refreshedAt = n.refreshedAt := by
  unfold askOcsp NodeSnapshot.applyOcsp
  split
  · split <;> rfl
  · rfl

theorem mem_askOcsp {s : Nat} (h : s ∈ n.serials) : s ∈ (askOcsp t n serial).serials := by
  unfold askOcsp NodeSnapshot.applyOcsp
  split
  · split
    · exact h
    · exact List.mem_insert_of_mem h
    · exact h
  · exact h

theorem mem_askOcsp_of_report {report : Report} (h : t.report serial = some report) :
    report.serial ∈ (askOcsp t n serial).serials := by
  unfold Tick.report at h
  split at h
  · next thisUpdate hanswer =>
    cases h
    simp only [askOcsp, hanswer, NodeSnapshot.applyOcsp]
    exact List.mem_insert_self
  · exact nomatch h

theorem foldl_askOcsp (serials : List Nat) (n : NodeSnapshot) :
    (serials.foldl (askOcsp t) n).refreshedAt = n.refreshedAt ∧
    (∀ s ∈ n.serials, s ∈ (serials.foldl (askOcsp t) n).serials) ∧
    ∀ report ∈ serials.filterMap t.report, report.serial ∈ (serials.foldl (askOcsp t) n).serials := by
  induction serials generalizing n with
  | nil => exact ⟨rfl, fun _ h => h, fun _ h => absurd h List.not_mem_nil⟩
  | cons serial serials ih =>
    obtain ⟨hat, hkept, hreported⟩ := ih (askOcsp t n serial)
    refine ⟨hat.trans refreshedAt_askOcsp, fun s hs => hkept s (mem_askOcsp hs), fun report hreport => ?_⟩
    obtain ⟨s, hs, hr⟩ := List.mem_filterMap.mp hreport
    rcases List.mem_cons.mp hs with rfl | hs
    · exact hkept _ (mem_askOcsp_of_report hr)
    · exact hreported report (List.mem_filterMap.mpr ⟨s, hs, hr⟩)

end Ocsp

def Holds (r : NodeRun) : Prop := ∀ report ∈ r.reports, report.Withdrawn r.crls ∨ report.serial ∈ r.node.serials

def Gathers (r : NodeRun) : Prop := r.node.refreshedAt = none → ∀ report ∈ r.reports, report.serial ∈ r.node.serials

variable {policy : Policy} {r : NodeRun}

theorem Holds.refuses (h : Holds r) : Refuses policy r := by
  intro report hreport
  refine (h report hreport).imp_right fun hmem now => ?_
  rw [check_of_mem hmem now]
  rfl

theorem Refuses.holds (h : Refuses policy r) (hg : Gathers r) : Holds r := by
  intro report hreport
  refine (h report hreport).imp_right fun hrefused => ?_
  cases hat : r.node.refreshedAt with
  | none => exact hg hat report hreport
  | some loadedAt =>
    by_contra hmem
    have hallow : (r.node.check policy report.serial (loadedAt + policy.maxStaleness)).1 = .allow :=
      check_of_not_mem hmem hat
    have := hrefused (loadedAt + policy.maxStaleness)
    rw [hallow] at this
    exact absurd this (by decide)

theorem gathers_step (e : NodeEvent) (h : Gathers r) : Gathers (r.step policy e) := by
  cases e with
  | check serial now =>
    intro hat report hreport
    have hset : ((r.node.check policy serial now).2).serials = r.node.serials := serials_noteSeen
    change report.serial ∈ ((r.node.check policy serial now).2).serials
    rw [hset]
    exact h (refreshedAt_noteSeen.symm.trans hat) report hreport
  | tick t =>
    simp only [NodeRun.step, NodeSnapshot.tick]
    cases hfetch : fetchCrl t.hasCa t.controllers with
    | ok crl =>
      intro hat
      exact absurd hat (Option.some_ne_none _)
    | error e =>
      obtain ⟨hat, hkept, hreported⟩ := foldl_askOcsp (t := t) r.node.seen r.node
      intro hnone report hreport
      rcases List.mem_append.mp hreport with hreport | hreport
      · exact hkept _ (h (hat.symm.trans hnone) report hreport)
      · exact hreported report hreport

theorem holds_step_iff (e : NodeEvent) (h : Holds r) : Holds (r.step policy e) ↔ NoOlderCrl r e := by
  cases e with
  | check serial now =>
    refine ⟨fun _ => trivial, fun _ report hreport => ?_⟩
    exact (h report hreport).imp_right fun hmem => serials_noteSeen.symm ▸ hmem
  | tick t =>
    simp only [NodeRun.step, NodeSnapshot.tick, NoOlderCrl]
    cases hfetch : fetchCrl t.hasCa t.controllers with
    | ok crl =>
      constructor
      · intro hholds report hreport
        exact hholds report (List.mem_append_left _ hreport)
      · intro hnew report hreport
        rcases List.mem_append.mp hreport with hreport | hreport
        · exact hnew report hreport
        · obtain ⟨serial, hserial, rfl⟩ := List.mem_map.mp hreport
          exact .inr hserial
    | error e =>
      refine ⟨fun _ => trivial, fun _ report hreport => ?_⟩
      obtain ⟨-, hkept, hreported⟩ := foldl_askOcsp (t := t) r.node.seen r.node
      rcases List.mem_append.mp hreport with hreport | hreport
      · exact (h report hreport).imp_right (hkept _)
      · exact .inr (hreported report hreport)

/-- A node refuses every serial that was reported and not withdrawn just in the runs in which no CRL is applied that
forgets one. -/
theorem revocations_kept_iff (policy : Policy) (events : List NodeEvent) :
    Along (NodeRun.step policy) (Refuses policy) ⟨.new, [], []⟩ events ↔
      Each (NodeRun.step policy) NoOlderCrl ⟨.new, [], []⟩ events := by
  have hgathers : Along (NodeRun.step policy) Gathers ⟨.new, [], []⟩ events :=
    along_of_each (G := fun _ _ => True) (fun _ _ h => absurd h List.not_mem_nil) (fun _ e h _ => gathers_step e h)
      (each_of_mem fun _ _ _ => trivial)
  have hstep : ∀ r e, Gathers r → Refuses policy r → (Refuses policy (r.step policy e) ↔ NoOlderCrl r e) := by
    intro r e hg hr
    rw [← holds_step_iff e (hr.holds hg)]
    exact ⟨fun h => h.holds (gathers_step e hg), Holds.refuses⟩
  rw [along_iff_each hgathers hstep]
  exact and_iff_right fun _ h => absurd h List.not_mem_nil

/-- The first controller lists the serial 7; the next pass gets an older list of another controller. -/
theorem older_crl_forgets :
    ¬ Along (NodeRun.step ⟨.hardFail, 3600⟩) (Refuses ⟨.hardFail, 3600⟩) ⟨.new, [], []⟩
      [.tick ⟨1000, true, [("controller-a", .verified ⟨[7], 900, none⟩)], none⟩,
        .tick ⟨1300, true, [("controller-a", .unreachable "timeout"), ("controller-b", .verified ⟨[], 800, none⟩)],
          none⟩] := by
  intro h
  rcases h.last ⟨7, 900⟩ (by decide) with hwithdrawn | hrefused
  · exact absurd hwithdrawn (by decide)
  · exact absurd (hrefused 1300) (by decide)

end Kcore.Pki
