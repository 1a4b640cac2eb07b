import Kcore.Ha.Lease
import Kcore.Replication.Tables

/-!
# Applying one replicated event

`apply_replication_event` as a sequence of separate database calls: the dedupe marker, the head of the resource
key, the capacity reservation, the conflict, the compensation job, the new head and, for `ha.lease`, the lease
row. The calls are not one transaction. A table of faults says which calls fail; what was written before a
failure stays.
-/

namespace Kcore

open Keyed

/-! ### The envelope -/

/-- The fields `apply_replication_event` reads from a payload, defaults filled in. -/
structure Envelope where
  opId : String
  controllerId : String
  eventType : String
  resourceKey : String
  logicalTsUnixMs : Int
  policyPriority : Int
  intentEpoch : Int
  validity : Option String
  safetyClass : Option String
  body : Value

def decodeEvent (event : ReplicationEvent) : Except String Envelope :=
  let id := toString event.eventId
  match event.payload with
  | .error e => .error ("invalid replication payload for event " ++ id ++ ": " ++ e)
  | .ok payload =>
    if !payload.isObject then .error ("invalid replication payload type for event " ++ id ++ ": expected object")
    else match payload.str "controllerId" with
      | none => .error ("event " ++ id ++ " missing controllerId")
      | some origin =>
        let eventType := (payload.str "eventType").getD event.eventType
        let resourceKey := (payload.str "resourceKey").getD event.resourceKey
        if eventType ≠ event.eventType then
          .error ("event " ++ id ++ " eventType mismatch: payload=" ++ eventType ++ ", row=" ++ event.eventType)
        else if resourceKey ≠ event.resourceKey then
          .error ("event " ++ id ++ " resourceKey mismatch: payload=" ++ resourceKey ++ ", row=" ++ event.resourceKey)
        else .ok {
          opId := (payload.str "opId").getD ("legacy:" ++ origin ++ ":" ++ id)
          controllerId := origin
          eventType := eventType
          resourceKey := resourceKey
          logicalTsUnixMs := (payload.i64 "logicalTsUnixMs").getD 0
          policyPriority := asI32 ((payload.i64 "policyPriority").getD 0)
          intentEpoch := (payload.i64 "intentEpoch").getD 0
          validity := payload.str "validity"
          safetyClass := payload.str "safetyClass"
          body := (payload.get "body").getD .null }

def Envelope.rank (env : Envelope) : ArbitrationRank where
  validity := parseValidityClass env.validity
  safety := parseSafetyClass env.safetyClass
  policyPriority := env.policyPriority
  intentEpoch := env.intentEpoch
  logicalTsUnixMs := env.logicalTsUnixMs
  controllerId := env.controllerId
  opId := env.opId

def ReplicationResourceHeadRow.rank (head : ReplicationResourceHeadRow) : ArbitrationRank where
  validity := parseValidityClass (some head.lastValidity)
  safety := parseSafetyClass (some head.lastSafetyClass)
  policyPriority := head.lastPolicyPriority
  intentEpoch := head.lastIntentEpoch
  logicalTsUnixMs := head.lastLogicalTsUnixMs
  controllerId := head.lastControllerId
  opId := head.lastOpId

def Envelope.headRow (env : Envelope) (eventId : Int) : ReplicationResourceHeadRow where
  resourceKey := env.resourceKey
  lastOpId := env.opId
  lastLogicalTsUnixMs := env.logicalTsUnixMs
  lastPolicyPriority := env.policyPriority
  lastIntentEpoch := env.intentEpoch
  lastValidity := env.validity.getD "valid"
  lastSafetyClass := env.safetyClass.getD "safe"
  lastControllerId := env.controllerId
  lastEventId := eventId
  lastEventType := env.eventType
  lastBodyJson := env.body

def shouldReplaceHead (existing : Option ReplicationResourceHeadRow) (rank : ArbitrationRank) : Bool :=
  match existing with
  | none => true
  | some head => compareRank rank head.rank = .gt

@[simp] theorem Envelope.rank_headRow (env : Envelope) (eventId : Int) : (env.headRow eventId).rank = env.rank := by
  simp [Envelope.headRow, ReplicationResourceHeadRow.rank, Envelope.rank, parseValidityClass_getD,
    parseSafetyClass_getD]

@[simp] theorem Envelope.resourceKey_headRow (env : Envelope) (eventId : Int) :
    (env.headRow eventId).resourceKey = env.resourceKey := rfl

theorem shouldReplaceHead_some (head : ReplicationResourceHeadRow) (rank : ArbitrationRank) :
    shouldReplaceHead (some head) rank = true ↔ head.rank < rank := by
  simp [shouldReplaceHead, compareRank_eq_gt_iff]

/-! ### Logged events -/

/-- What a controller hands to `log_replication_event`, with the identifier and the time drawn there. -/
structure LogEntry where
  opId : String
  logicalTsUnixMs : Int
  controllerId : String
  dcId : String
  eventType : String
  resourceKey : String
  body : Value
  tsFits : fitsI64 logicalTsUnixMs = true

namespace LogEntry

def payload (e : LogEntry) : Value := .object
  [("schemaVersion", .number (.int 1)), ("opId", .string e.opId), ("logicalTsUnixMs", .number (.int e.logicalTsUnixMs)),
   ("controllerId", .string e.controllerId), ("dcId", .string e.dcId), ("eventType", .string e.eventType),
   ("resourceKey", .string e.resourceKey), ("body", e.body)]

def envelope (e : LogEntry) : Envelope where
  opId := e.opId
  controllerId := e.controllerId
  eventType := e.eventType
  resourceKey := e.resourceKey
  logicalTsUnixMs := e.logicalTsUnixMs
  policyPriority := 0
  intentEpoch := 0
  validity := none
  safetyClass := none
  body := e.body

def event (e : LogEntry) (id : Int) : ReplicationEvent := ⟨id, e.eventType, e.resourceKey, .ok e.payload⟩

theorem decode_event (e : LogEntry) (id : Int) : decodeEvent (e.event id) = .ok e.envelope := by
  simp [decodeEvent, event, payload, envelope, Value.isObject, Value.str, Value.i64, Value.get, Value.asStr,
    Value.asI64, e.tsFits, asI32]

end LogEntry

/-! ### Database calls -/

inductive Call where
  | receivedOpExists
  | insertReceivedOp
  | getResourceHead
  | getNode
  | getReservation
  | upsertFailedReservation
  | upsertReservation
  | insertRejectedConflict
  | insertConflict
  | insertCompensationJob
  | upsertResourceHead
  | getClusterLease
  | upsertClusterLease
  deriving DecidableEq

abbrev Faults := Call → Option String

def Faults.none : Faults := fun _ => .none

def Faults.only (c : Call) (e : String) : Faults := fun c' => if c' = c then some e else .none

def call {α : Type} (faults : Faults) (c : Call) (msg : String) (x : Tx Database α) : Tx Database α :=
  match faults c with
  | some e => throw (msg ++ ": " ++ e)
  | .none => x

@[simp] theorem call_none {α : Type} (c : Call) (msg : String) (x : Tx Database α) :
    call Faults.none c msg x = x := rfl

def insertReplicationReceivedOp (env : Envelope) : Tx Database Unit := Tx.write fun db =>
  if db.receivedOps.has env.opId then db
  else { db with receivedOps := db.receivedOps.put ⟨env.opId, env.controllerId, env.eventType, env.resourceKey⟩ }

/-- `insert_replication_conflict_with_resolved`; the answer is the identifier of the new row. -/
def insertReplicationConflict (resourceKey incumbentOpId challengerOpId incumbentControllerId
    challengerControllerId reason : String) (resolved : Bool) : Tx Database Int := do
  let id ← Tx.read fun db => db.conflictSeq + 1
  let row : ReplicationConflictRow := ⟨id, resourceKey, incumbentOpId, challengerOpId, incumbentControllerId,
    challengerControllerId, reason, resolved⟩
  Tx.write fun db => { db with conflicts := db.conflicts ++ [row], conflictSeq := id }
  return id

def insertCompensationJob (conflictId : Int) (resourceKey loserOpId loserEventType : String)
    (loserBodyJson : Value) : Tx Database Unit := Tx.write fun db =>
  let row : ReplicationCompensationJobRow := ⟨db.jobSeq + 1, conflictId, resourceKey, loserOpId, loserEventType,
    loserBodyJson, "pending", 0⟩
  { db with jobs := db.jobs ++ [row], jobSeq := db.jobSeq + 1 }

def upsertReplicationResourceHead (row : ReplicationResourceHeadRow) : Tx Database Unit :=
  Tx.write fun db => { db with heads := db.heads.put row }

def upsertReplicationReservation (row : ReplicationReservationRow) : Tx Database Unit :=
  Tx.write fun db => { db with reservations := db.reservations.put row }

def upsertClusterLease (row : ClusterLeaseRow) : Tx Database Unit :=
  Tx.write fun db => { db with leases := db.leases.put row }

/-! ### Reservations -/

def reservationMaxRetries : Int := 3

structure ReservationOutcome where
  accepted : Bool
  reason : String

def reservationFailureStatus (retryable : Bool) (nextRetry : Int) : String :=
  if retryable then if nextRetry ≥ reservationMaxRetries then "retry_exhausted" else "failed_retryable"
  else "failed_non_retryable"

/-- `record_replication_reservation_failure`, and the outcome its caller makes of it. -/
def recordReservationFailure (faults : Faults) (reservationKey resourceKey opId : String) (retryable : Bool)
    (error : String) : Tx Database ReservationOutcome := do
  let msg := "record reservation failure " ++ reservationKey
  let row ← call faults .getReservation msg (Tx.read fun db => db.reservations.get (reservationKey, resourceKey))
  let nextRetry := asI32 ((row.map (·.retryCount)).getD 0 + 1)
  let status := reservationFailureStatus retryable nextRetry
  call faults .upsertFailedReservation msg
    (upsertReplicationReservation ⟨reservationKey, resourceKey, opId, status, error, nextRetry⟩)
  return ⟨false, reservationKey ++ ": " ++ error ++ "; status=" ++ status ++ "; retry_count=" ++ toString nextRetry⟩

def evaluateReservation (faults : Faults) (eventType resourceKey opId : String) (body : Value) :
    Tx Database ReservationOutcome :=
  if eventType ≠ "vm.create" then pure ⟨true, "not-required"⟩
  else match body.str "nodeId" with
    | none => pure ⟨false, "missing nodeId"⟩
    | some nodeId => do
      let reservationKey := "node-capacity/" ++ nodeId
      let node ← call faults .getNode ("load node for reservation " ++ nodeId)
        (Tx.read fun db => db.domain.nodes.get nodeId)
      match node with
      | some node =>
        if node.approvalStatus ≠ "approved" then
          recordReservationFailure faults reservationKey resourceKey opId false "node not approved"
        else if node.status ≠ "ready" then
          recordReservationFailure faults reservationKey resourceKey opId true "node not ready"
        else
          call faults .upsertReservation ("reserve token " ++ reservationKey)
            (upsertReplicationReservation ⟨reservationKey, resourceKey, opId, "reserved", "", 0⟩)
          return ⟨true, reservationKey⟩
      | none => recordReservationFailure faults reservationKey resourceKey opId false "node missing"

/-! ### Conflicts and the lease -/

def conflictReason (existing : ReplicationResourceHeadRow) (env : Envelope) (replaceHead : Bool) : String :=
  let ops := "(incumbent_op=" ++ existing.lastOpId ++ ", challenger_op=" ++ env.opId ++ ")"
  if replaceHead then "auto-resolved: challenger wins by deterministic rank " ++ ops
  else "auto-resolved: incumbent remains winner; challenger terminal=" ++
    (loserTerminalState env.rank.validity env.rank.safety).debug ++ " " ++ ops

def loserState (existing : ReplicationResourceHeadRow) (env : Envelope) (replaceHead : Bool) :
    ReconcileTerminalState :=
  let loser := if replaceHead then existing.rank else env.rank
  loserTerminalState loser.validity loser.safety

def recordConflict (faults : Faults) (eventId : Int) (existing : ReplicationResourceHeadRow) (env : Envelope)
    (replaceHead : Bool) : Tx Database Unit := do
  let compensated := loserState existing env replaceHead = .autoCompensated
  let conflictId ← call faults .insertConflict ("insert conflict for event " ++ toString eventId)
    (insertReplicationConflict env.resourceKey existing.lastOpId env.opId existing.lastControllerId env.controllerId
      (conflictReason existing env replaceHead) (!compensated))
  if compensated then
    call faults .insertCompensationJob ("insert compensation job for event " ++ toString eventId)
      (if replaceHead then
        insertCompensationJob conflictId env.resourceKey existing.lastOpId existing.lastEventType existing.lastBodyJson
      else insertCompensationJob conflictId env.resourceKey env.opId env.eventType env.body)

def ClusterLeaseRow.view (row : ClusterLeaseRow) : LeaseView := ⟨row.holder, row.expiresAtMs, row.term⟩

/-- The lease a `ha.lease` body carries, or what is missing from it. -/
def leaseFromBody (body : Value) : Except String ClusterLeaseRow :=
  match body.str "holder", body.i64 "expiresAtMs", body.i64 "term" with
  | none, _, _ => .error "ha.lease missing holder"
  | some _, none, _ => .error "ha.lease missing expiresAtMs"
  | some _, some _, none => .error "ha.lease missing term"
  | some holder, some expiresAtMs, some term => .ok ⟨(body.str "name").getD "failover", holder, expiresAtMs, term⟩

def applyHaLease (faults : Faults) (body : Value) : Tx Database Unit := do
  let incoming ← Tx.ofExcept (leaseFromBody body)
  let current ← call faults .getClusterLease ("read lease " ++ incoming.name)
    (Tx.read fun db => db.leases.get incoming.name)
  if !leaseSupersedes (current.map (·.view)) incoming.view then return
  call faults .upsertClusterLease ("upsert lease " ++ incoming.name) (upsertClusterLease incoming)

/-! ### The event -/

def arbitrate (faults : Faults) (eventId : Int) (env : Envelope) : Tx Database Unit := do
  let existing ← call faults .getResourceHead ("get resource head for event " ++ toString eventId)
    (Tx.read fun db => db.heads.get env.resourceKey)
  let wins := shouldReplaceHead existing env.rank
  let rejected : Option String ←
    if wins then do
      let reservation ← evaluateReservation faults env.eventType env.resourceKey env.opId env.body
      -- A `vm.create` stays in the head even when it cannot be reserved yet.
      pure (if !reservation.accepted && env.eventType ≠ "vm.create" then some reservation.reason else none)
    else pure none
  match rejected, existing with
  | some reason, _ =>
    let incumbent := (existing.map fun h => (h.lastOpId, h.lastControllerId)).getD (env.opId, env.controllerId)
    (call faults .insertRejectedConflict "" (insertReplicationConflict env.resourceKey incumbent.1 env.opId
      incumbent.2 env.controllerId ("auto-rejected: reservation failed (" ++ reason ++ ")") true)).ignore
    if existing.isSome then return
  | none, some head => recordConflict faults eventId head env wins
  | none, none => pure ()
  if wins && rejected.isNone then
    call faults .upsertResourceHead ("upsert resource head for event " ++ toString eventId)
      (upsertReplicationResourceHead (env.headRow eventId))
  if env.eventType = "ha.lease" then applyHaLease faults env.body

def applyReplicationEvent (faults : Faults) (event : ReplicationEvent) : Tx Database Unit := do
  let env ← Tx.ofExcept (decodeEvent event)
  let seen ← call faults .receivedOpExists ("check received op for event " ++ toString event.eventId)
    (Tx.read fun db => db.receivedOps.has env.opId)
  if seen then return
  call faults .insertReceivedOp ("insert received op for event " ++ toString event.eventId)
    (insertReplicationReceivedOp env)
  arbitrate faults event.eventId env

end Kcore
