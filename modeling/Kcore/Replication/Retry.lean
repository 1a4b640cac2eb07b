import Kcore.Replication.Heads

/-!
# Retrying a failed event

The calls of `apply_replication_event` are separate writes with the dedupe marker first. An event that fails at
some call is delivered again later, and is then skipped if the marker was stored. `retrySafe_iff` says for which
events, stores and failing calls the retry makes up for the failure.
-/

namespace Kcore

open Keyed

def effects (db : Database) : Table ReplicationResourceHeadRow.resourceKey × List ReplicationConflictRow ×
    List ReplicationCompensationJobRow × Table ClusterLeaseRow.name :=
  (db.heads, db.conflicts, db.jobs, db.leases)

/-- If the call `c` fails with `e` and the event is delivered once more without a failure, then the heads,
conflicts, compensation jobs and leases are those of one delivery without a failure; and the failed delivery has
not recorded the operation as received without storing its head and its lease. -/
def RetrySafe (event : ReplicationEvent) (db : Database) (c : Call) (e : String) : Prop :=
  let once := (applyReplicationEvent .none event).exec db
  let failed := (applyReplicationEvent (.only c e) event).exec db
  let again := (applyReplicationEvent .none event).exec failed.2
  failed.1 ≠ .ok () →
    effects again.2 = effects once.2 ∧
    ∀ env, decodeEvent event = .ok env → failed.2.receivedOps.has env.opId = true →
      failed.2.heads = once.2.heads ∧ failed.2.leases = once.2.leases

def nodeReady (db : Database) (nodeId : String) : Bool :=
  match db.domain.nodes.get nodeId with
  | some node => node.approvalStatus = "approved" && node.status = "ready"
  | none => false

def leaseWouldReplace (db : Database) (env : Envelope) : Prop :=
  env.eventType = "ha.lease" ∧ ∃ lease, leaseFromBody env.body = .ok lease ∧
    leaseSupersedes ((db.leases.get lease.name).map (·.view)) lease.view = true

/-- A new operation is lost when the call fails: the call is made after the marker is stored, for this event on
this store, and what should have followed changes the heads, conflicts, jobs or leases. -/
def LosesEvent (env : Envelope) (db : Database) : Call → Prop
  | .receivedOpExists => False
  | .insertReceivedOp => False
  | .getResourceHead => True
  | .getNode => shouldReplaceHead (db.heads.get env.resourceKey) env.rank = true ∧ env.eventType = "vm.create" ∧
      ∃ nodeId, env.body.str "nodeId" = some nodeId
  | .getReservation => shouldReplaceHead (db.heads.get env.resourceKey) env.rank = true ∧
      env.eventType = "vm.create" ∧ ∃ nodeId, env.body.str "nodeId" = some nodeId ∧ nodeReady db nodeId = false
  | .upsertFailedReservation => shouldReplaceHead (db.heads.get env.resourceKey) env.rank = true ∧
      env.eventType = "vm.create" ∧ ∃ nodeId, env.body.str "nodeId" = some nodeId ∧ nodeReady db nodeId = false
  | .upsertReservation => shouldReplaceHead (db.heads.get env.resourceKey) env.rank = true ∧
      env.eventType = "vm.create" ∧ ∃ nodeId, env.body.str "nodeId" = some nodeId ∧ nodeReady db nodeId = true
  | .insertRejectedConflict => False
  | .insertConflict => ∃ head, db.heads.get env.resourceKey = some head
  | .insertCompensationJob => ∃ head, db.heads.get env.resourceKey = some head ∧
      loserState head env (shouldReplaceHead (some head) env.rank) = .autoCompensated
  | .upsertResourceHead => shouldReplaceHead (db.heads.get env.resourceKey) env.rank = true
  | .getClusterLease => leaseWouldReplace db env
  | .upsertClusterLease => leaseWouldReplace db env

/-! ### A failing reservation -/

section Reservation

variable {faults : Faults} {resourceKey opId nodeId : String} {body : Value} {db : Database}

private theorem exec_evaluate_of_notReady (hn : body.str "nodeId" = some nodeId) (hr : nodeReady db nodeId = false) :
    ∃ key retryable error, ∀ faults : Faults, faults .getNode = none →
      (evaluateReservation faults "vm.create" resourceKey opId body).exec db =
        (recordReservationFailure faults key resourceKey opId retryable error).exec db := by
  cases hg : db.domain.nodes.get nodeId with
  | none =>
    refine ⟨"node-capacity/" ++ nodeId, false, "node missing", fun faults hf => ?_⟩
    simp only [evaluateReservation, hn, call, hf, ne_eq, not_true_eq_false, if_false, Tx.exec_read_bind, hg]
  | some node =>
    simp only [nodeReady, hg, Bool.and_eq_false_iff, decide_eq_false_iff_not] at hr
    by_cases ha : node.approvalStatus = "approved"
    · have hs : node.status ≠ "ready" := hr.resolve_left fun h => h ha
      refine ⟨"node-capacity/" ++ nodeId, true, "node not ready", fun faults hf => ?_⟩
      simp only [evaluateReservation, hn, call, hf, ne_eq, not_true_eq_false, if_false, Tx.exec_read_bind, hg, ha, hs,
        not_false_eq_true, if_true]
    · refine ⟨"node-capacity/" ++ nodeId, false, "node not approved", fun faults hf => ?_⟩
      simp only [evaluateReservation, hn, call, hf, ne_eq, not_true_eq_false, if_false, Tx.exec_read_bind, hg, ha,
        not_false_eq_true, if_true]

private theorem exec_evaluate_of_ready (hn : body.str "nodeId" = some nodeId) (hr : nodeReady db nodeId = true)
    (hf : faults .getNode = none) :
    (evaluateReservation faults "vm.create" resourceKey opId body).exec db =
      (call faults .upsertReservation ("reserve token " ++ ("node-capacity/" ++ nodeId))
        (upsertReplicationReservation ⟨"node-capacity/" ++ nodeId, resourceKey, opId, "reserved", "", 0⟩) >>= fun _ =>
        pure ⟨true, "node-capacity/" ++ nodeId⟩).exec db := by
  cases hg : db.domain.nodes.get nodeId with
  | none => simp [nodeReady, hg] at hr
  | some node =>
    simp only [nodeReady, hg, Bool.and_eq_true, decide_eq_true_eq] at hr
    simp only [evaluateReservation, hn, call, hf, ne_eq, not_true_eq_false, if_false, Tx.exec_read_bind, hg, hr]

end Reservation

def ReservationCall (env : Envelope) (db : Database) (c : Call) : Prop :=
  env.eventType = "vm.create" ∧ ∃ nodeId, env.body.str "nodeId" = some nodeId ∧
    (c = .getNode ∨ c = .upsertReservation ∧ nodeReady db nodeId = true ∨
      (c = .getReservation ∨ c = .upsertFailedReservation) ∧ nodeReady db nodeId = false)

private theorem exec_reserveStage_fails {env : Envelope} {db : Database} {c : Call} (e : String)
    (h : ReservationCall env db c) : ∃ err, ((reserveStage (.only c e) env true).exec db).1 = .error err := by
  obtain ⟨hv, nodeId, hn, hc⟩ := h
  suffices hx : ∃ err,
      ((evaluateReservation (.only c e) "vm.create" env.resourceKey env.opId env.body).exec db).1 = .error err by
    obtain ⟨err, herr⟩ := hx
    exact ⟨err, by rw [reserveStage, if_pos rfl, hv, Tx.exec_bind_of_error herr]⟩
  rcases hc with rfl | ⟨rfl, hr⟩ | ⟨hc, hr⟩
  · simp only [evaluateReservation, hn, ne_eq, not_true_eq_false, if_false]
    exact ⟨_, rfl⟩
  · rw [exec_evaluate_of_ready hn hr rfl]
    exact ⟨_, rfl⟩
  · obtain ⟨key, retryable, error, hex⟩ := exec_evaluate_of_notReady hn hr
    rcases hc with rfl | rfl
    all_goals exact ⟨_, by rw [hex _ rfl]; rfl⟩

private theorem exec_reserveStage_of_not {env : Envelope} {db : Database} {c : Call} (e : String) (wins : Bool)
    (h : ¬ (wins = true ∧ ReservationCall env db c)) :
    (reserveStage (.only c e) env wins).exec db = (reserveStage .none env wins).exec db := by
  cases wins with
  | false => rfl
  | true =>
    have hno : ¬ ReservationCall env db c := fun hr => h ⟨rfl, hr⟩
    by_cases hv : env.eventType = "vm.create"
    · cases hn : env.body.str "nodeId" with
      | none => simp [reserveStage, evaluateReservation, hn]
      | some nodeId =>
        have hg : c ≠ .getNode := fun hc => hno ⟨hv, nodeId, hn, .inl hc⟩
        have hf : (Faults.only c e) .getNode = none := if_neg hg.symm
        simp only [reserveStage, if_true, hv, Tx.exec_bind]
        cases hr : nodeReady db nodeId with
        | true =>
          have hu : c ≠ .upsertReservation := fun hc => hno ⟨hv, nodeId, hn, .inr (.inl ⟨hc, hr⟩)⟩
          have hfu : (Faults.only c e) .upsertReservation = none := if_neg hu.symm
          rw [exec_evaluate_of_ready hn hr hf, exec_evaluate_of_ready hn hr rfl, call, hfu]
          rfl
        | false =>
          obtain ⟨key, retryable, error, hex⟩ := exec_evaluate_of_notReady hn hr
          have h1 : c ≠ .getReservation := fun hc => hno ⟨hv, nodeId, hn, .inr (.inr ⟨.inl hc, hr⟩)⟩
          have h2 : c ≠ .upsertFailedReservation := fun hc => hno ⟨hv, nodeId, hn, .inr (.inr ⟨.inr hc, hr⟩)⟩
          have hf1 : (Faults.only c e) .getReservation = none := if_neg h1.symm
          have hf2 : (Faults.only c e) .upsertFailedReservation = none := if_neg h2.symm
          rw [hex _ hf, hex _ rfl, recordReservationFailure, call, hf1, recordReservationFailure]
          simp only [call, hf2, Faults.none]
    · simp [reserveStage, evaluateReservation, hv]

/-! ### One failing call -/

section Stages

variable (e : String) (env : Envelope) (eventId : Int) (existing : Option ReplicationResourceHeadRow)

-- Each stage makes its own calls only, so a failing call leaves the other stages as they are: by `rfl`, call by call.
private theorem exec_stages_reserve {c : Call} (db : Database)
    (hc : c ∈ [Call.getNode, .getReservation, .upsertFailedReservation, .upsertReservation]) :
    (stages (.only c e) eventId env existing).exec db =
      (reserveStage (.only c e) env (shouldReplaceHead existing env.rank) >>= fun _ =>
        conflictStage .none eventId existing env (shouldReplaceHead existing env.rank) >>= fun _ =>
        headStage .none eventId env (shouldReplaceHead existing env.rank) >>= fun _ =>
        leaseStage .none env).exec db := by
  simp only [List.mem_cons, List.not_mem_nil, or_false] at hc
  rcases hc with rfl | rfl | rfl | rfl <;> rfl

private theorem exec_stages_conflict {c : Call} (db : Database)
    (hc : c ∈ [Call.insertConflict, .insertCompensationJob]) :
    (stages (.only c e) eventId env existing).exec db =
      (conflictStage (.only c e) eventId existing env (shouldReplaceHead existing env.rank) >>= fun _ =>
        headStage .none eventId env (shouldReplaceHead existing env.rank) >>= fun _ =>
        leaseStage .none env).exec (afterReserve env existing db) := by
  simp only [List.mem_cons, List.not_mem_nil, or_false] at hc
  rcases hc with rfl | rfl <;> exact exec_reserve_then env existing _ db

private theorem exec_stages_head (db : Database) :
    (stages (.only .upsertResourceHead e) eventId env existing).exec db =
      (headStage (.only .upsertResourceHead e) eventId env (shouldReplaceHead existing env.rank) >>= fun _ =>
        leaseStage .none env).exec (afterConflict env eventId existing db) :=
  (exec_reserve_then env existing _ db).trans (exec_conflict_then env eventId existing _ db)

private theorem exec_stages_lease {c : Call} (db : Database) (hc : c ∈ [Call.getClusterLease, .upsertClusterLease]) :
    (stages (.only c e) eventId env existing).exec db =
      (leaseStage (.only c e) env).exec (afterHead env eventId existing db) := by
  simp only [List.mem_cons, List.not_mem_nil, or_false] at hc
  rcases hc with rfl | rfl <;>
    exact (exec_reserve_then env existing _ db).trans ((exec_conflict_then env eventId existing _ db).trans
      (exec_head_then env eventId existing _ db))

private theorem exec_stages_none_eq (db : Database) :
    (conflictStage .none eventId existing env (shouldReplaceHead existing env.rank) >>= fun _ =>
      headStage .none eventId env (shouldReplaceHead existing env.rank) >>= fun _ =>
      leaseStage .none env).exec (afterReserve env existing db) = (stages .none eventId env existing).exec db :=
  (exec_reserve_then env existing _ db).symm

private theorem effects_afterReserve (db : Database) : effects (afterReserve env existing db) = effects db :=
  keeps_reserveStage .none env _ (fun _ _ => rfl) db

end Stages

/-! ### What one event adds -/

section Once

variable (e : String) (env : Envelope) (eventId : Int)

private theorem length_conflicts_recordConflict (head : ReplicationResourceHeadRow) (wins : Bool) (db : Database) :
    ((recordConflict .none eventId head env wins).exec db).2.conflicts.length = db.conflicts.length + 1 := by
  unfold recordConflict insertReplicationConflict insertCompensationJob
  cases wins <;> simp [Tx.exec_ite] <;> split <;> simp

private theorem length_jobs_recordConflict (head : ReplicationResourceHeadRow) (wins : Bool) (db : Database)
    (h : loserState head env wins = .autoCompensated) :
    ((recordConflict .none eventId head env wins).exec db).2.jobs.length = db.jobs.length + 1 := by
  unfold recordConflict insertReplicationConflict insertCompensationJob
  cases wins <;> simp [h]

private theorem length_conflicts_afterConflict (head : ReplicationResourceHeadRow) (db : Database) :
    (afterConflict env eventId (some head) db).conflicts.length = db.conflicts.length + 1 := by
  rw [afterConflict, conflictStage, length_conflicts_recordConflict, afterReserve,
    keeps_reserveStage (f := Database.conflicts) .none env _ (fun _ _ => rfl)]

private theorem stages_none_tables (existing : Option ReplicationResourceHeadRow) (db : Database) :
    ((stages .none eventId env existing).exec db).2.heads = (afterHead env eventId existing db).heads ∧
    ((stages .none eventId env existing).exec db).2.conflicts = (afterConflict env eventId existing db).conflicts ∧
    ((stages .none eventId env existing).exec db).2.jobs = (afterConflict env eventId existing db).jobs := by
  rw [exec_stages_none]
  refine ⟨keeps_leaseStage (f := Database.heads) .none env (fun _ _ => rfl) _, ?_, ?_⟩
  · rw [keeps_leaseStage (f := Database.conflicts) .none env (fun _ _ => rfl), afterHead_eq]
    split <;> rfl
  · rw [keeps_leaseStage (f := Database.jobs) .none env (fun _ _ => rfl), afterHead_eq]
    split <;> rfl

private theorem effects_eq_iff (a b : Database) :
    effects a = effects b ↔ a.heads = b.heads ∧ a.conflicts = b.conflicts ∧ a.jobs = b.jobs ∧ a.leases = b.leases := by
  simp only [effects, Prod.mk.injEq]

private theorem heads_put_ne {db : Database} (h : shouldReplaceHead (db.heads.get env.resourceKey) env.rank = true) :
    db.heads.put (env.headRow eventId) ≠ db.heads := by
  intro heq
  have hget : db.heads.get env.resourceKey = some (env.headRow eventId) := by
    rw [← heq, ← env.resourceKey_headRow eventId, Table.get_put_self]
  rw [hget, shouldReplaceHead_some, env.rank_headRow] at h
  exact lt_irrefl _ h

/-- A new event always leaves a trace: a head where there was none, or a conflict with the one there was. -/
private theorem effects_stages_ne (db : Database) :
    effects ((stages .none eventId env (db.heads.get env.resourceKey)).exec db).2 ≠ effects db := by
  intro heq
  obtain ⟨hh, hc, -, -⟩ := (effects_eq_iff _ _).mp heq
  obtain ⟨h1, h2, -⟩ := stages_none_tables env eventId (db.heads.get env.resourceKey) db
  cases hex : db.heads.get env.resourceKey with
  | none =>
    have hw : shouldReplaceHead (db.heads.get env.resourceKey) env.rank = true := by rw [hex]; rfl
    rw [h1, afterHead_heads, if_pos hw] at hh
    exact heads_put_ne env eventId hw hh
  | some head =>
    rw [h2, hex] at hc
    have hlen := length_conflicts_afterConflict env eventId head db
    rw [hc] at hlen
    omega

private theorem exec_conflictStage_fails (head : ReplicationResourceHeadRow) (wins : Bool) (db : Database) :
    ∃ err, (conflictStage (.only .insertConflict e) eventId (some head) env wins).exec db = (.error err, db) :=
  ⟨_, Tx.exec_bind_of_error rfl _⟩

private theorem exec_conflictStage_job_fails (head : ReplicationResourceHeadRow) (wins : Bool) (db : Database)
    (h : loserState head env wins = .autoCompensated) :
    ∃ err db', (conflictStage (.only .insertCompensationJob e) eventId (some head) env wins).exec db =
      (.error err, db') ∧ db'.jobs = db.jobs := by
  unfold conflictStage recordConflict insertReplicationConflict
  simp [call, Faults.only, h]

private theorem exec_headStage_fails (db : Database) :
    ∃ err, (headStage (.only .upsertResourceHead e) eventId env true).exec db = (.error err, db) :=
  ⟨_, rfl⟩

private theorem length_jobs_afterConflict (head : ReplicationResourceHeadRow) (db : Database)
    (h : loserState head env (shouldReplaceHead (some head) env.rank) = .autoCompensated) :
    (afterConflict env eventId (some head) db).jobs.length = db.jobs.length + 1 := by
  rw [afterConflict, conflictStage, length_jobs_recordConflict _ _ _ _ _ h, afterReserve,
    keeps_reserveStage (f := Database.jobs) .none env _ (fun _ _ => rfl)]

private theorem afterHead_leases (existing : Option ReplicationResourceHeadRow) (db : Database) :
    (afterHead env eventId existing db).leases = db.leases := by
  have h : (afterConflict env eventId existing db).leases = db.leases :=
    (keeps_conflictStage (f := Database.leases) .none eventId existing env _ (fun _ _ _ _ _ => rfl) _).trans
      (keeps_reserveStage (f := Database.leases) .none env _ (fun _ _ => rfl) db)
  rw [afterHead_eq]
  split
  · exact h
  · exact h

private theorem leaseStage_of_replaces {db : Database} (h : leaseWouldReplace db env) :
    ((leaseStage .none env).exec db).2.leases ≠ db.leases ∧
    ∀ c ∈ [Call.getClusterLease, .upsertClusterLease],
      ((leaseStage (.only c e) env).exec db).1 ≠ .ok () ∧ ((leaseStage (.only c e) env).exec db).2 = db := by
  obtain ⟨ht, lease, hl, hs⟩ := h
  constructor
  · have hput : ((leaseStage .none env).exec db).2.leases = db.leases.put lease := by
      simp [leaseStage, ht, applyHaLease, hl, hs, upsertClusterLease]
    intro heq
    rw [hput] at heq
    have hget : db.leases.get lease.name = some lease := by rw [← heq, Table.get_put_self]
    rw [hget, Option.map_some, leaseSupersedes_some_iff] at hs
    exact lt_irrefl _ hs
  · intro c hc
    simp only [List.mem_cons, List.not_mem_nil, or_false] at hc
    rcases hc with rfl | rfl
    · simp [leaseStage, ht, applyHaLease, hl, call, Faults.only, Tx.exec_bind]
    · simp [leaseStage, ht, applyHaLease, hl, hs, call, Faults.only]

private theorem leaseStage_of_not_replaces {db : Database} (h : ¬ leaseWouldReplace db env) (faults : Faults) :
    ((leaseStage faults env).exec db).2 = db := by
  by_cases ht : env.eventType = "ha.lease"
  · cases hl : leaseFromBody env.body with
    | error msg => simp [leaseStage, ht, applyHaLease, hl]
    | ok lease =>
      have hs : leaseSupersedes ((db.leases.get lease.name).map (·.view)) lease.view = false := by
        rw [← Bool.not_eq_true]
        exact fun hs => h ⟨ht, lease, hl, hs⟩
      unfold leaseStage applyHaLease
      rw [if_pos ht, hl, Tx.exec_ofExcept_ok_bind, call]
      cases faults .getClusterLease with
      | none => simp [hs]
      | some msg => exact congrArg Prod.snd (Tx.exec_bind_of_error rfl _)
  · simp [leaseStage, ht]

end Once

/-! ### The event as a whole -/

section Event

variable {e : String} {env : Envelope} {eventId : Int} {db : Database} {c : Call}

def Lost (c : Call) (e : String) (env : Envelope) (eventId : Int) (db : Database) : Prop :=
  ((arbitrate (.only c e) eventId env).exec db).1 ≠ .ok () ∧
  effects ((arbitrate (.only c e) eventId env).exec db).2 ≠
    effects ((stages .none eventId env (db.heads.get env.resourceKey)).exec db).2

private theorem lost_of_nothing_stored {err : String} {db' : Database}
    (h : (arbitrate (.only c e) eventId env).exec db = (.error err, db')) (hs : effects db' = effects db) :
    Lost c e env eventId db := by
  rw [Lost, h]
  refine ⟨by simp, ?_⟩
  show effects db' ≠ _
  rw [hs]
  exact (effects_stages_ne env eventId db).symm

private theorem lost_getResourceHead : Lost .getResourceHead e env eventId db := by
  have h : (arbitrate (.only .getResourceHead e) eventId env).exec db =
      (.error ("get resource head for event " ++ toString eventId ++ ": " ++ e), db) := by
    rw [arbitrate_eq]
    exact Tx.exec_bind_of_error rfl _
  exact lost_of_nothing_stored h rfl

private theorem lost_reserve (hc : c ∈ [Call.getNode, .getReservation, .upsertFailedReservation, .upsertReservation])
    (hw : shouldReplaceHead (db.heads.get env.resourceKey) env.rank = true) (hr : ReservationCall env db c) :
    Lost c e env eventId db := by
  have hg : Faults.only c e .getResourceHead = none := by
    simp only [List.mem_cons, List.not_mem_nil, or_false] at hc
    rcases hc with rfl | rfl | rfl | rfl <;> rfl
  obtain ⟨err, herr⟩ := exec_reserveStage_fails e hr
  have h : (arbitrate (.only c e) eventId env).exec db =
      (.error err, ((reserveStage (.only c e) env true).exec db).2) := by
    rw [exec_arbitrate hg, exec_stages_reserve e env eventId _ db hc, hw, Tx.exec_bind_of_error herr]
  exact lost_of_nothing_stored h (keeps_reserveStage (f := effects) (.only c e) env true (fun _ _ => rfl) db)

variable {head : ReplicationResourceHeadRow}

private theorem lost_insertConflict (hex : db.heads.get env.resourceKey = some head) :
    Lost .insertConflict e env eventId db := by
  obtain ⟨err, herr⟩ := exec_conflictStage_fails e env eventId head (shouldReplaceHead (some head) env.rank)
    (afterReserve env (some head) db)
  have h : (arbitrate (.only .insertConflict e) eventId env).exec db =
      (.error err, afterReserve env (some head) db) := by
    rw [exec_arbitrate (if_neg (by decide)), exec_stages_conflict e env eventId _ db (by simp), hex, Tx.exec_bind,
      herr]
  exact lost_of_nothing_stored h (effects_afterReserve env (some head) db)

private theorem lost_insertCompensationJob (hex : db.heads.get env.resourceKey = some head)
    (hcomp : loserState head env (shouldReplaceHead (some head) env.rank) = .autoCompensated) :
    Lost .insertCompensationJob e env eventId db := by
  obtain ⟨err, db', herr, hjobs⟩ := exec_conflictStage_job_fails e env eventId head _
    (afterReserve env (some head) db) hcomp
  have h : (arbitrate (.only .insertCompensationJob e) eventId env).exec db = (.error err, db') := by
    rw [exec_arbitrate (if_neg (by decide)), exec_stages_conflict e env eventId _ db (by simp), hex, Tx.exec_bind,
      herr]
  rw [Lost, h, hex]
  refine ⟨by simp, fun heq => ?_⟩
  obtain ⟨-, -, hj, -⟩ := (effects_eq_iff _ _).mp heq
  rw [(stages_none_tables env eventId (some head) db).2.2, hjobs, afterReserve,
    keeps_reserveStage (f := Database.jobs) .none env _ (fun _ _ => rfl)] at hj
  have hlen := length_jobs_afterConflict env eventId head db hcomp
  rw [← hj] at hlen
  omega

private theorem lost_upsertResourceHead (hw : shouldReplaceHead (db.heads.get env.resourceKey) env.rank = true) :
    Lost .upsertResourceHead e env eventId db := by
  obtain ⟨err, herr⟩ := exec_headStage_fails e env eventId
    (afterConflict env eventId (db.heads.get env.resourceKey) db)
  have h : (arbitrate (.only .upsertResourceHead e) eventId env).exec db =
      (.error err, afterConflict env eventId (db.heads.get env.resourceKey) db) := by
    rw [exec_arbitrate (if_neg (by decide)), exec_stages_head e env eventId _ db, hw, Tx.exec_bind, herr]
  rw [Lost, h]
  refine ⟨by simp, fun heq => ?_⟩
  obtain ⟨hh, -, -, -⟩ := (effects_eq_iff _ _).mp heq
  rw [(stages_none_tables env eventId _ db).1, afterHead_heads, if_pos hw, afterConflict_heads] at hh
  exact heads_put_ne env eventId hw hh.symm

private theorem lost_lease (hc : c ∈ [Call.getClusterLease, .upsertClusterLease]) (hr : leaseWouldReplace db env) :
    Lost c e env eventId db := by
  have hg : Faults.only c e .getResourceHead = none := by
    simp only [List.mem_cons, List.not_mem_nil, or_false] at hc
    rcases hc with rfl | rfl <;> rfl
  have hr' : leaseWouldReplace (afterHead env eventId (db.heads.get env.resourceKey) db) env := by
    unfold leaseWouldReplace
    rw [afterHead_leases]
    exact hr
  obtain ⟨hput, hfail⟩ := leaseStage_of_replaces e env hr'
  rw [Lost, exec_arbitrate hg, exec_stages_lease e env eventId _ db hc, exec_stages_none, (hfail c hc).2]
  exact ⟨(hfail c hc).1, fun heq => hput ((effects_eq_iff _ _).mp heq).2.2.2.symm⟩

private theorem lost_of_loses (e : String) (eventId : Int) (h : LosesEvent env db c) :
    Lost c e env eventId db := by
  cases c with
  | receivedOpExists => exact h.elim
  | insertReceivedOp => exact h.elim
  | insertRejectedConflict => exact h.elim
  | getResourceHead => exact lost_getResourceHead
  | getNode =>
    obtain ⟨hw, hv, nodeId, hn⟩ := h
    exact lost_reserve (by simp) hw ⟨hv, nodeId, hn, .inl rfl⟩
  | getReservation =>
    obtain ⟨hw, hv, nodeId, hn, hr⟩ := h
    exact lost_reserve (by simp) hw ⟨hv, nodeId, hn, .inr (.inr ⟨.inl rfl, hr⟩)⟩
  | upsertFailedReservation =>
    obtain ⟨hw, hv, nodeId, hn, hr⟩ := h
    exact lost_reserve (by simp) hw ⟨hv, nodeId, hn, .inr (.inr ⟨.inr rfl, hr⟩)⟩
  | upsertReservation =>
    obtain ⟨hw, hv, nodeId, hn, hr⟩ := h
    exact lost_reserve (by simp) hw ⟨hv, nodeId, hn, .inr (.inl ⟨rfl, hr⟩)⟩
  | insertConflict => exact h.elim fun head hex => lost_insertConflict hex
  | insertCompensationJob => exact h.elim fun head hh => lost_insertCompensationJob hh.1 hh.2
  | upsertResourceHead => exact lost_upsertResourceHead h
  | getClusterLease | upsertClusterLease => exact lost_lease (by simp) h

private theorem kept_reserve (hc : c ∈ [Call.getNode, .getReservation, .upsertFailedReservation, .upsertReservation])
    (h : ¬ (shouldReplaceHead (db.heads.get env.resourceKey) env.rank = true ∧ ReservationCall env db c)) :
    effects ((stages (.only c e) eventId env (db.heads.get env.resourceKey)).exec db).2 =
      effects ((stages .none eventId env (db.heads.get env.resourceKey)).exec db).2 := by
  rw [exec_stages_reserve e env eventId _ db hc, Tx.exec_bind, exec_reserveStage_of_not e _ h, ← Tx.exec_bind]
  rfl

private theorem kept_lease (hc : c ∈ [Call.getClusterLease, .upsertClusterLease]) (h : ¬ leaseWouldReplace db env) :
    effects ((stages (.only c e) eventId env (db.heads.get env.resourceKey)).exec db).2 =
      effects ((stages .none eventId env (db.heads.get env.resourceKey)).exec db).2 := by
  have h' : ¬ leaseWouldReplace (afterHead env eventId (db.heads.get env.resourceKey) db) env := by
    unfold leaseWouldReplace
    rw [afterHead_leases]
    exact h
  rw [exec_stages_lease e env eventId _ db hc, exec_stages_none, leaseStage_of_not_replaces env h',
    leaseStage_of_not_replaces env h']

private theorem kept_insertCompensationJob
    (hcomp : loserState head env (shouldReplaceHead (some head) env.rank) ≠ .autoCompensated) :
    effects ((stages (.only .insertCompensationJob e) eventId env (some head)).exec db).2 =
      effects ((stages .none eventId env (some head)).exec db).2 := by
  have hsame : conflictStage (.only .insertCompensationJob e) eventId (some head) env
      (shouldReplaceHead (some head) env.rank) =
      conflictStage .none eventId (some head) env (shouldReplaceHead (some head) env.rank) := by
    simp only [conflictStage, recordConflict, hcomp, if_false, decide_false]
    rfl
  rw [exec_stages_conflict e env eventId _ db (by simp), hsame, exec_stages_none_eq]

/-- Where a call that is not made fails, or what follows changes nothing, the store is that of the event. -/
private theorem kept_of_not_loses (e : String) (eventId : Int) (h : ¬ LosesEvent env db c) :
    effects ((arbitrate (.only c e) eventId env).exec db).2 =
      effects ((stages .none eventId env (db.heads.get env.resourceKey)).exec db).2 := by
  by_cases hg : c = .getResourceHead
  · exact absurd (hg ▸ trivial) h
  rw [exec_arbitrate (if_neg fun hc => hg hc.symm)]
  cases c with
  | receivedOpExists => rfl
  | insertReceivedOp => rfl
  | insertRejectedConflict => rfl
  | getResourceHead => exact absurd rfl hg
  | getNode =>
    refine kept_reserve (by simp) fun hm => h ?_
    obtain ⟨hw, hv, nodeId, hn, -⟩ := hm
    exact ⟨hw, hv, nodeId, hn⟩
  | getReservation | upsertFailedReservation =>
    refine kept_reserve (by simp) fun hm => h ?_
    obtain ⟨hw, hv, nodeId, hn, hc | ⟨hc, -⟩ | ⟨-, hr⟩⟩ := hm
    · cases hc
    · cases hc
    · exact ⟨hw, hv, nodeId, hn, hr⟩
  | upsertReservation =>
    refine kept_reserve (by simp) fun hm => h ?_
    obtain ⟨hw, hv, nodeId, hn, hc | ⟨-, hr⟩ | ⟨hc, -⟩⟩ := hm
    · cases hc
    · exact ⟨hw, hv, nodeId, hn, hr⟩
    · rcases hc with hc | hc <;> cases hc
  | insertConflict =>
    cases hex : db.heads.get env.resourceKey with
    | none => rfl
    | some head => exact absurd ⟨head, hex⟩ h
  | insertCompensationJob =>
    cases hex : db.heads.get env.resourceKey with
    | none => rfl
    | some head => exact kept_insertCompensationJob fun hc => h ⟨head, hex, hc⟩
  | upsertResourceHead =>
    have hw : shouldReplaceHead (db.heads.get env.resourceKey) env.rank = false := Bool.eq_false_iff.mpr h
    unfold stages
    rw [hw]
    rfl
  | getClusterLease | upsertClusterLease => exact kept_lease (by simp) h

end Event

private theorem losesEvent_markReceived (env : Envelope) (db : Database) (c : Call) :
    LosesEvent env (markReceived env db) c ↔ LosesEvent env db c := by
  cases c <;> exact Iff.rfl

private theorem exec_apply_only {event : ReplicationEvent} {env : Envelope} (db : Database) (c : Call) (e : String)
    (hd : decodeEvent event = .ok env) :
    (applyReplicationEvent (.only c e) event).exec db =
      if c = .receivedOpExists then
        (.error ("check received op for event " ++ toString event.eventId ++ ": " ++ e), db)
      else if db.receivedOps.has env.opId then (.ok (), db)
      else if c = .insertReceivedOp then
        (.error ("insert received op for event " ++ toString event.eventId ++ ": " ++ e), db)
      else (arbitrate (.only c e) event.eventId env).exec (markReceived env db) := by
  unfold applyReplicationEvent
  rw [hd, Tx.exec_ofExcept_ok_bind]
  by_cases h1 : c = .receivedOpExists
  · subst h1
    exact Tx.exec_bind_of_error rfl _
  · have hf1 : Faults.only c e .receivedOpExists = none := if_neg fun h => h1 h.symm
    rw [if_neg h1, call, hf1, Tx.exec_read_bind]
    cases hs : db.receivedOps.has env.opId with
    | true => rfl
    | false =>
      by_cases h2 : c = .insertReceivedOp
      · subst h2
        exact Tx.exec_bind_of_error rfl _
      · have hf2 : Faults.only c e .insertReceivedOp = none := if_neg fun h => h2 h.symm
        simp [call, hf2, h2, insertReplicationReceivedOp, hs, markReceived]

private theorem exec_retry_of_recorded {event : ReplicationEvent} {env : Envelope} {db : Database} (c : Call)
    (e : String) (hd : decodeEvent event = .ok env) :
    (applyReplicationEvent .none event).exec
        ((arbitrate (.only c e) event.eventId env).exec (markReceived env db)).2 =
      (.ok (), ((arbitrate (.only c e) event.eventId env).exec (markReceived env db)).2) := by
  have hk := keeps_arbitrate (f := Database.receivedOps) (.only c e) event.eventId env (fun _ _ => rfl)
    (fun _ _ _ _ _ => rfl) (fun _ _ => rfl) (fun _ _ => rfl) (markReceived env db)
  refine exec_apply_of_seen _ hd ?_
  rw [hk]
  simp [markReceived, Table.has]

/-- **Retry safety.** The retry makes up for a failing call exactly when the call does not lose the event: it is one of
the two calls before the dedupe marker is stored, or is not made here, or reads a lease that the event would not have
replaced. -/
theorem retrySafe_iff (event : ReplicationEvent) (db : Database) (c : Call) (e : String) :
    RetrySafe event db c e ↔ ∀ env, decodeEvent event = .ok env → db.receivedOps.has env.opId = false →
      ¬ LosesEvent env db c := by
  unfold RetrySafe
  cases hd : decodeEvent event with
  | error msg =>
    have hx : ∀ faults, (applyReplicationEvent faults event).exec db = (.error msg, db) := by
      intro faults; rw [applyReplicationEvent, hd, Tx.exec_ofExcept_error_bind]
    simp [hx]
  | ok env =>
    simp only [Except.ok.injEq, forall_eq']
    rw [exec_apply_only db c e hd]
    by_cases h1 : c = .receivedOpExists
    · subst h1
      rw [if_pos rfl]
      constructor
      · exact fun _ _ h => h
      · intro h _
        refine ⟨rfl, fun hs => ?_⟩
        rw [exec_apply_of_seen db hd hs]
        exact ⟨rfl, rfl⟩
    rw [if_neg h1]
    cases hs : db.receivedOps.has env.opId with
    | true => simp
    | false =>
      rw [if_neg Bool.false_ne_true, exec_apply_of_new db hd hs]
      by_cases h2 : c = .insertReceivedOp
      · subst h2
        rw [if_pos rfl]
        constructor
        · exact fun _ _ h => h
        · intro h _
          refine ⟨by rw [exec_apply_of_new db hd hs], fun hseen => ?_⟩
          rw [show db.receivedOps.has env.opId = true from hseen] at hs
          exact absurd hs (by simp)
      rw [if_neg h2, exec_retry_of_recorded c e hd,
        exec_arbitrate (show Faults.none .getResourceHead = none from rfl)]
      constructor
      · intro hsafe _ hloses
        obtain ⟨herr, hne⟩ := lost_of_loses e event.eventId
          ((losesEvent_markReceived env db c).mpr hloses)
        exact hne (hsafe herr).1
      · intro hno _
        have hkept := kept_of_not_loses e event.eventId
          (fun hl => hno rfl ((losesEvent_markReceived env db c).mp hl))
        obtain ⟨hh, -, -, hl⟩ := (effects_eq_iff _ _).mp hkept
        exact ⟨hkept, fun _ => ⟨hh, hl⟩⟩

def keyRegistered : LogEntry :=
  ⟨"op-1", 1000, "ctrl-a", "DC1", "ssh_key.create", "ssh-key/laptop",
    .object [("name", .string "laptop"), ("publicKey", .string "ssh-ed25519 AAAA")], .refl true⟩

/-- When the write of the head fails the marker is already stored, and the key never reaches the follower. -/
theorem failed_head_write_loses_key :
    ¬ RetrySafe (keyRegistered.event 1) .empty .upsertResourceHead "database is locked" := by
  intro h
  obtain ⟨heff, -⟩ := h (by decide)
  have hrows := congrArg (fun t => t.1.rows.length) heff
  exact absurd hrows (by decide)

/-! ### Any calls failing -/

section Attempts

variable {faults : Faults} {event : ReplicationEvent} {env : Envelope}

private theorem exec_apply_cases (faults : Faults) (hd : decodeEvent event = .ok env) (db : Database) :
    (∃ e, (applyReplicationEvent faults event).exec db = (.error e, db)) ∨
    db.receivedOps.has env.opId = true ∧ (applyReplicationEvent faults event).exec db = (.ok (), db) ∨
    db.receivedOps.has env.opId = false ∧ (applyReplicationEvent faults event).exec db =
      (arbitrate faults event.eventId env).exec (markReceived env db) := by
  unfold applyReplicationEvent
  rw [hd, Tx.exec_ofExcept_ok_bind]
  cases hexists : faults .receivedOpExists with
  | some e => exact .inl ⟨_, by simp only [call, hexists]; rfl⟩
  | none =>
    simp only [call, hexists, Tx.exec_read_bind]
    cases hs : db.receivedOps.has env.opId with
    | true => exact .inr (.inl ⟨rfl, rfl⟩)
    | false =>
      cases hinsert : faults .insertReceivedOp with
      | some e => exact .inl ⟨_, rfl⟩
      | none =>
        refine .inr (.inr ⟨rfl, ?_⟩)
        simp [insertReplicationReceivedOp, markReceived, hs]

private theorem has_markReceived (env : Envelope) (db : Database) (opId : String) :
    (markReceived env db).receivedOps.has opId = true ↔ opId = env.opId ∨ db.receivedOps.has opId = true := by
  simp only [markReceived, Table.has, Table.get_put]
  split
  · rename_i h
    exact ⟨fun _ => .inl h.symm, fun _ => rfl⟩
  · rename_i h
    exact ⟨.inr, fun h' => h'.resolve_left fun e => h e.symm⟩

private theorem receivedOps_arbitrate (faults : Faults) (eventId : Int) (env : Envelope) (db : Database) :
    ((arbitrate faults eventId env).exec db).2.receivedOps = db.receivedOps :=
  keeps_arbitrate faults eventId env (fun _ _ => rfl) (fun _ _ _ _ _ => rfl) (fun _ _ => rfl) (fun _ _ => rfl) db

private theorem heads_stages (faults : Faults) (eventId : Int) (env : Envelope)
    (existing : Option ReplicationResourceHeadRow) (db : Database) :
    let heads := ((stages faults eventId env existing).exec db).2.heads
    heads = db.heads ∨ shouldReplaceHead existing env.rank = true ∧ heads = db.heads.put (env.headRow eventId) := by
  have hreserve := keeps_reserveStage (f := Database.heads) faults env (shouldReplaceHead existing env.rank)
    fun _ _ => rfl
  have hconflict := keeps_conflictStage (f := Database.heads) faults eventId existing env
    (shouldReplaceHead existing env.rank) fun _ _ _ _ _ => rfl
  have hlease := keeps_leaseStage (f := Database.heads) faults env fun _ _ => rfl
  intro heads
  -- A failure in the first two stages leaves the heads; after them they are still those of `db`.
  obtain h | ⟨_, db₁, h₁, hexec⟩ := hreserve.bind_cases _ db
  · exact .inl h
  obtain h | ⟨_, db₂, h₂, hexec'⟩ := hconflict.bind_cases _ db₁
  · exact .inl ((congrArg (·.2.heads) hexec).trans (h.trans h₁))
  have hheads : heads = ((headStage faults eventId env (shouldReplaceHead existing env.rank)).exec db₂).2.heads :=
    (congrArg (·.2.heads) (hexec.trans hexec')).trans (Tx.Keeps.exec_bind (fun _ => hlease) db₂)
  rw [hheads, ← h₁, ← h₂]
  unfold headStage
  split
  · rename_i hw
    unfold call
    split
    · exact .inl rfl
    · exact .inr ⟨hw, rfl⟩
  · exact .inl rfl

private theorem heads_arbitrate (faults : Faults) (eventId : Int) (env : Envelope) (db : Database) :
    let heads := ((arbitrate faults eventId env).exec db).2.heads
    heads = db.heads ∨ shouldReplaceHead (db.heads.get env.resourceKey) env.rank = true ∧
      heads = db.heads.put (env.headRow eventId) := by
  cases hget : faults .getResourceHead with
  | some e =>
    rw [arbitrate_eq, call, hget]
    exact .inl rfl
  | none =>
    rw [exec_arbitrate hget]
    exact heads_stages faults eventId env _ db

/-- What applying `events` may do to a store: a head gives way only to the row of one of the events and only to a
greater rank, and an operation once marked stays marked. -/
structure Advances (events : List ReplicationEvent) (db db' : Database) : Prop where
  rises : ∀ k old, db.heads.get k = some old →
    ∃ new, db'.heads.get k = some new ∧ (new = old ∨ compareRank new.rank old.rank = .gt)
  origin : ∀ k new, db'.heads.get k = some new → db.heads.get k = some new ∨
    ∃ event ∈ events, ∃ env, decodeEvent event = .ok env ∧ new = env.headRow event.eventId
  marked : ∀ opId, db.receivedOps.has opId = true → db'.receivedOps.has opId = true

namespace Advances

variable {events events' : List ReplicationEvent} {db db' db'' : Database}

private theorem of_eq (hh : db'.heads = db.heads) (hr : db'.receivedOps = db.receivedOps) : Advances events db db' where
  rises _ old h := ⟨old, hh ▸ h, .inl rfl⟩
  origin _ _ h := .inl (hh ▸ h)
  marked _ h := hr ▸ h

private theorem trans (h : Advances events db db') (h' : Advances events' db' db'') :
    Advances (events ++ events') db db'' where
  rises k old hold := by
    obtain ⟨mid, hmid, hrank⟩ := h.rises k old hold
    obtain ⟨new, hnew, hrank'⟩ := h'.rises k mid hmid
    refine ⟨new, hnew, ?_⟩
    rcases hrank with rfl | hrank
    · exact hrank'
    rcases hrank' with rfl | hrank'
    · exact .inr hrank
    · rw [compareRank_eq_gt_iff] at hrank hrank' ⊢
      exact .inr (hrank.trans hrank')
  origin k new hnew := by
    rcases h'.origin k new hnew with hmid | ⟨event, hmem, hrow⟩
    · rcases h.origin k new hmid with hold | ⟨event, hmem, hrow⟩
      · exact .inl hold
      · exact .inr ⟨event, List.mem_append_left _ hmem, hrow⟩
    · exact .inr ⟨event, List.mem_append_right _ hmem, hrow⟩
  marked opId hm := h'.marked opId (h.marked opId hm)

private theorem put (hd : decodeEvent event = .ok env)
    (hw : shouldReplaceHead (db.heads.get env.resourceKey) env.rank = true)
    (hh : db'.heads = db.heads.put (env.headRow event.eventId)) (hr : db'.receivedOps = db.receivedOps) :
    Advances [event] db db' where
  rises k old hold := by
    rw [hh, Table.get_put]
    split
    · rename_i hk
      refine ⟨_, rfl, .inr ?_⟩
      obtain rfl : env.resourceKey = k := hk
      rw [hold, shouldReplaceHead_some] at hw
      rw [compareRank_eq_gt_iff, Envelope.rank_headRow]
      exact hw
    · exact ⟨old, hold, .inl rfl⟩
  origin k new hnew := by
    rw [hh, Table.get_put] at hnew
    split at hnew
    · exact .inr ⟨event, List.mem_singleton_self _, env, hd, (Option.some.inj hnew).symm⟩
    · exact .inl hnew
  marked _ h := hr ▸ h

private theorem mark (env : Envelope) (db : Database) : Advances [] db (markReceived env db) where
  rises _ old h := ⟨old, h, .inl rfl⟩
  origin _ _ h := .inl h
  marked opId h := (has_markReceived env db opId).mpr (.inr h)

private theorem apply (faults : Faults) (event : ReplicationEvent) (db : Database) :
    Advances [event] db ((applyReplicationEvent faults event).exec db).2 := by
  cases hd : decodeEvent event with
  | error e =>
    unfold applyReplicationEvent
    rw [hd, Tx.exec_ofExcept_error_bind]
    exact of_eq rfl rfl
  | ok env =>
    rcases exec_apply_cases faults hd db with ⟨e, h⟩ | ⟨-, h⟩ | ⟨-, h⟩
    · rw [h]; exact of_eq rfl rfl
    · rw [h]; exact of_eq rfl rfl
    · rw [h]
      have hr := receivedOps_arbitrate faults event.eventId env (markReceived env db)
      refine (mark env db).trans ?_
      rcases heads_arbitrate faults event.eventId env (markReceived env db) with hh | ⟨hw, hh⟩
      · exact of_eq hh hr
      · exact put hd hw hh hr

end Advances

/-- A delivery at which any calls may fail, of an event that need not be well formed, in tables that other tasks
may have changed but for the heads and the received operations. -/
structure Attempt where
  around : Database
  faults : Faults
  event : ReplicationEvent

def attempt (db : Database) (a : Attempt) : Except String Unit × Database :=
  (applyReplicationEvent a.faults a.event).exec (surround a.around db)

def attemptAll (db : Database) (attempts : List Attempt) : Database :=
  attempts.foldl (fun db a => (attempt db a).2) db

private theorem advances_attempt (db : Database) (a : Attempt) : Advances [a.event] db (attempt db a).2 := by
  have hsame : Advances [] db (surround a.around db) := .of_eq rfl rfl
  exact hsame.trans (Advances.apply a.faults a.event _)

private theorem advances_attemptAll (db : Database) (attempts : List Attempt) :
    Advances (attempts.map Attempt.event) db (attemptAll db attempts) := by
  induction attempts generalizing db with
  | nil => exact .of_eq rfl rfl
  | cons a attempts ih => exact (advances_attempt db a).trans (ih (attempt db a).2)

private theorem marked_of_ok {db : Database} {a : Attempt} (hok : (attempt db a).1 = .ok ()) :
    ∃ env, decodeEvent a.event = .ok env ∧ (attempt db a).2.receivedOps.has env.opId = true := by
  unfold attempt at hok ⊢
  cases hd : decodeEvent a.event with
  | error e =>
    unfold applyReplicationEvent at hok
    rw [hd, Tx.exec_ofExcept_error_bind] at hok
    simp at hok
  | ok env =>
    refine ⟨env, rfl, ?_⟩
    rcases exec_apply_cases a.faults hd (surround a.around db) with ⟨e, h⟩ | ⟨hs, h⟩ | ⟨-, h⟩
    · rw [h] at hok
      simp at hok
    · rw [h]
      exact hs
    · rw [h, receivedOps_arbitrate]
      exact (has_markReceived env _ _).mpr (.inl rfl)

private theorem exec_apply_of_marked (faults : Faults) (hd : decodeEvent event = .ok env) {db : Database}
    (hs : db.receivedOps.has env.opId = true) : ((applyReplicationEvent faults event).exec db).2 = db := by
  rcases exec_apply_cases faults hd db with ⟨e, h⟩ | ⟨-, h⟩ | ⟨hno, -⟩
  · rw [h]
  · rw [h]
  · rw [hs] at hno
    contradiction

/-- Whichever calls fail at deliveries that come one after the other, and whatever other tasks do in between, the heads
of a controller only rise: each is the row it was, or a row of greater rank of an event that was delivered. An event
that was once applied changes nothing when it comes again. -/
theorem heads_only_rise_whatever_fails (db : Database) (attempts : List Attempt) :
    Advances (attempts.map Attempt.event) db (attemptAll db attempts) ∧
    ∀ before a later, attempts = before ++ a :: later → (attempt (attemptAll db before) a).1 = .ok () →
      ∀ around faults, (attempt (attemptAll db attempts) ⟨around, faults, a.event⟩).2 =
        surround around (attemptAll db attempts) := by
  refine ⟨advances_attemptAll db attempts, ?_⟩
  rintro before a later rfl hok around faults
  obtain ⟨env, hd, hs⟩ := marked_of_ok hok
  have hlast : attemptAll db (before ++ a :: later) = attemptAll (attempt (attemptAll db before) a).2 later := by
    rw [attemptAll, List.foldl_append]
    rfl
  refine exec_apply_of_marked faults hd ?_
  rw [hlast]
  exact (advances_attemptAll _ later).marked env.opId hs

end Attempts

end Kcore
