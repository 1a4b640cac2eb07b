import Kcore.Lib.Tx
import Kcore.Policy
import Kcore.Store.Rows

/-!
# The tables that carry replication

The outbox a controller appends its own events to, what it has received and decided from its peers, and the
database as a whole. A column that holds JSON is kept as the value the text parses to.
-/

namespace Kcore

open Keyed

/-- The bytes of an event payload, by what `serde_json::from_slice` makes of them. -/
abbrev Payload := Except String Value

structure ReplicationAckRow where
  peerId : String
  lastEventId : Int

structure ReceivedOpRow where
  opId : String
  originControllerId : String
  eventType : String
  resourceKey : String

structure ReplicationResourceHeadRow where
  resourceKey : String
  lastOpId : String
  lastLogicalTsUnixMs : Int
  lastPolicyPriority : Int
  lastIntentEpoch : Int
  lastValidity : String
  lastSafetyClass : String
  lastControllerId : String
  lastEventId : Int
  lastEventType : String
  lastBodyJson : Value

structure ReplicationConflictRow where
  id : Int
  resourceKey : String
  incumbentOpId : String
  challengerOpId : String
  incumbentControllerId : String
  challengerControllerId : String
  reason : String
  resolved : Bool

structure ReplicationCompensationJobRow where
  id : Int
  conflictId : Int
  resourceKey : String
  loserOpId : String
  loserEventType : String
  loserBodyJson : Value
  status : String
  attempts : Int

structure ReplicationMaterializedHeadRow where
  resourceKey : String
  lastOpId : String
  lastEventType : String
  deriving DecidableEq

structure ReplicationReservationRow where
  reservationKey : String
  resourceKey : String
  opId : String
  status : String
  error : String
  retryCount : Int
  deriving DecidableEq

structure ClusterLeaseRow where
  name : String
  holder : String
  expiresAtMs : Int
  term : Int
  deriving DecidableEq

/-- The database of one controller. Identifiers of conflicts and jobs are never reused, so each of the two
tables comes with the greatest one given out. -/
structure Database where
  acks : Table ReplicationAckRow.peerId
  receivedOps : Table ReceivedOpRow.opId
  heads : Table ReplicationResourceHeadRow.resourceKey
  conflicts : List ReplicationConflictRow
  conflictSeq : Int
  jobs : List ReplicationCompensationJobRow
  jobSeq : Int
  materialized : Table ReplicationMaterializedHeadRow.resourceKey
  reservations : Table fun r : ReplicationReservationRow => (r.reservationKey, r.resourceKey)
  leases : Table ClusterLeaseRow.name
  domain : DomainTables

def Database.empty : Database where
  acks := .empty
  receivedOps := .empty
  heads := .empty
  conflicts := []
  conflictSeq := 0
  jobs := []
  jobSeq := 0
  materialized := .empty
  reservations := .empty
  leases := .empty
  domain := .empty

structure ReplicationEvent where
  eventId : Int
  eventType : String
  resourceKey : String
  payload : Payload

end Kcore
