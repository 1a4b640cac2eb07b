import Mathlib.Data.List.MinMax
import Mathlib.Tactic.Common
import Kcore.Replication.Apply

/-!
# Resource heads

Which row of `replication_resource_heads` a controller ends with. One delivery replaces the head of its key
exactly when the operation is new and its rank is strictly greater (`deliver_heads`). Over any sequence of
deliveries the head of a key is therefore the row of the event of greatest rank among those delivered for it,
which does not depend on the order, on repetitions or on any other table.
-/

namespace Kcore

open Keyed

/-! ### One event -/

def reserveStage (faults : Faults) (env : Envelope) (wins : Bool) : Tx Database Unit := do
  if wins then
    let _ ← evaluateReservation faults env.eventType env.resourceKey env.opId env.body

def conflictStage (faults : Faults) (eventId : Int) (existing : Option ReplicationResourceHeadRow) (env : Envelope)
    (wins : Bool) : Tx Database Unit :=
  match existing with
  | some head => recordConflict faults eventId head env wins
  | none => pure ()

def headStage (faults : Faults) (eventId : Int) (env : Envelope) (wins : Bool) : Tx Database Unit := do
  if wins then
    call faults .upsertResourceHead ("upsert resource head for event " ++ toString eventId)
      (upsertReplicationResourceHead (env.headRow eventId))

def leaseStage (faults : Faults) (env : Envelope) : Tx Database Unit := do
  if env.eventType = "ha.lease" then applyHaLease faults env.body

def stages (faults : Faults) (eventId : Int) (env : Envelope) (existing : Option ReplicationResourceHeadRow) :
    Tx Database Unit := do
  let wins := shouldReplaceHead existing env.rank
  reserveStage faults env wins
  conflictStage faults eventId existing env wins
  headStage faults eventId env wins
  leaseStage faults env

/-- A reservation never keeps an event out of the head: only `vm.create` can fail to reserve, and it is exempt.
-/
theorem arbitrate_eq (faults : Faults) (eventId : Int) (env : Envelope) :
    arbitrate faults eventId env =
      call faults .getResourceHead ("get resource head for event " ++ toString eventId)
        (Tx.read fun db => db.heads.get env.resourceKey) >>= stages faults eventId env := by
  unfold arbitrate stages reserveStage conflictStage headStage leaseStage
  refine bind_congr fun existing => ?_
  by_cases hc : env.eventType = "vm.create"
  · cases hw : shouldReplaceHead existing env.rank <;> cases existing <;> simp [hc]
  · cases hw : shouldReplaceHead existing env.rank <;> cases existing <;> simp [hc, evaluateReservation]

theorem exec_arbitrate {faults : Faults} (h : faults .getResourceHead = none) (eventId : Int) (env : Envelope)
    (db : Database) :
    (arbitrate faults eventId env).exec db = (stages faults eventId env (db.heads.get env.resourceKey)).exec db := by
  rw [arbitrate_eq, call, h]
  exact Tx.exec_read_bind _ _ _

/-! ### What each stage leaves alone -/

section Frames

variable {τ : Type} {f : Database → τ} (faults : Faults)

theorem keeps_call {α : Type} {c : Call} {msg : String} {x : Tx Database α} (hx : x.Keeps f) :
    (call faults c msg x).Keeps f := by
  unfold call
  split
  · exact .throw _
  · exact hx

theorem keeps_evaluateReservation (eventType resourceKey opId : String) (body : Value)
    (hf : ∀ db t, f { db with reservations := t } = f db) :
    (evaluateReservation faults eventType resourceKey opId body).Keeps f := by
  have hfail : ∀ key retryable error,
      (recordReservationFailure faults key resourceKey opId retryable error).Keeps f := fun _ _ _ =>
    (keeps_call faults (.read _)).bind fun _ => (keeps_call faults (.write fun db => hf db _)).bind fun _ => .pure _
  unfold evaluateReservation
  refine .ite (.pure _) ?_
  split
  · exact .pure _
  · refine (keeps_call faults (.read _)).bind fun node => ?_
    cases node with
    | none => exact hfail _ _ _
    | some node =>
      refine .ite (hfail _ _ _) (.ite (hfail _ _ _) ?_)
      exact (keeps_call faults (.write fun db => hf db _)).bind fun _ => .pure _

theorem keeps_reserveStage (env : Envelope) (wins : Bool) (hf : ∀ db t, f { db with reservations := t } = f db) :
    (reserveStage faults env wins).Keeps f :=
  .ite ((keeps_evaluateReservation faults _ _ _ _ hf).bind fun _ => .pure _) (.pure _)

theorem keeps_recordConflict (eventId : Int) (head : ReplicationResourceHeadRow) (env : Envelope) (wins : Bool)
    (hf : ∀ db c n j m, f { db with conflicts := c, conflictSeq := n, jobs := j, jobSeq := m } = f db) :
    (recordConflict faults eventId head env wins).Keeps f := by
  have hc : ∀ db c n, f { db with conflicts := c, conflictSeq := n } = f db := by
    intro db c n
    exact hf db c n db.jobs db.jobSeq
  have hj : ∀ db j m, f { db with jobs := j, jobSeq := m } = f db := by
    intro db j m
    exact hf db db.conflicts db.conflictSeq j m
  unfold recordConflict
  refine (keeps_call faults ?_).bind fun conflictId => .ite (keeps_call faults ?_) (.pure _)
  · exact (Tx.Keeps.read _).bind fun _ => (Tx.Keeps.write fun db => hc db _ _).bind fun _ => .pure _
  · exact .ite (.write fun db => hj db _ _) (.write fun db => hj db _ _)

theorem keeps_applyHaLease (body : Value) (hf : ∀ db t, f { db with leases := t } = f db) :
    (applyHaLease faults body).Keeps f := by
  unfold applyHaLease
  refine (Tx.Keeps.ofExcept _).bind fun incoming => (keeps_call faults (.read _)).bind fun current => ?_
  exact .ite (.pure _) (keeps_call faults (.write fun db => hf db _))

theorem keeps_conflictStage (eventId : Int) (existing : Option ReplicationResourceHeadRow) (env : Envelope)
    (wins : Bool) (hf : ∀ db c n j m, f { db with conflicts := c, conflictSeq := n, jobs := j, jobSeq := m } = f db) :
    (conflictStage faults eventId existing env wins).Keeps f := by
  cases existing with
  | none => exact .pure _
  | some head => exact keeps_recordConflict faults eventId head env wins hf

theorem keeps_leaseStage (env : Envelope) (hf : ∀ db t, f { db with leases := t } = f db) :
    (leaseStage faults env).Keeps f :=
  .ite (keeps_applyHaLease faults _ hf) (.pure _)

theorem keeps_arbitrate (eventId : Int) (env : Envelope)
    (hr : ∀ db t, f { db with reservations := t } = f db)
    (hc : ∀ db c n j m, f { db with conflicts := c, conflictSeq := n, jobs := j, jobSeq := m } = f db)
    (hh : ∀ db t, f { db with heads := t } = f db) (hl : ∀ db t, f { db with leases := t } = f db) :
    (arbitrate faults eventId env).Keeps f := by
  rw [arbitrate_eq]
  refine (keeps_call faults (.read _)).bind fun existing => ?_
  refine Tx.Keeps.bind (keeps_reserveStage faults env _ hr) fun _ => ?_
  refine (keeps_conflictStage faults eventId existing env _ hc).bind fun _ => ?_
  refine (Tx.Keeps.ite (keeps_call faults (.write fun db => hh db _)) (.pure _)).bind fun _ => ?_
  exact keeps_leaseStage faults env hl

theorem keeps_applyReplicationEvent (event : ReplicationEvent)
    (ho : ∀ db t, f { db with receivedOps := t } = f db) (hr : ∀ db t, f { db with reservations := t } = f db)
    (hc : ∀ db c n j m, f { db with conflicts := c, conflictSeq := n, jobs := j, jobSeq := m } = f db)
    (hh : ∀ db t, f { db with heads := t } = f db) (hl : ∀ db t, f { db with leases := t } = f db) :
    (applyReplicationEvent faults event).Keeps f := by
  unfold applyReplicationEvent
  refine (Tx.Keeps.ofExcept _).bind fun env => (keeps_call faults (.read _)).bind fun seen => ?_
  refine .ite (.pure _) ((keeps_call faults (.write fun db => ?_)).bind fun _ =>
    keeps_arbitrate faults _ env hr hc hh hl)
  split
  · rfl
  · exact ho db _

end Frames

theorem apply_domain (event : ReplicationEvent) (db : Database) :
    ((applyReplicationEvent .none event).exec db).2.domain = db.domain :=
  keeps_applyReplicationEvent (f := Database.domain) .none event (fun _ _ => rfl) (fun _ _ => rfl)
    (fun _ _ _ _ _ => rfl) (fun _ _ => rfl) (fun _ _ => rfl) db

theorem apply_materialized (event : ReplicationEvent) (db : Database) :
    ((applyReplicationEvent .none event).exec db).2.materialized = db.materialized :=
  keeps_applyReplicationEvent (f := Database.materialized) .none event (fun _ _ => rfl) (fun _ _ => rfl)
    (fun _ _ _ _ _ => rfl) (fun _ _ => rfl) (fun _ _ => rfl) db

theorem returns_evaluateReservation (eventType resourceKey opId : String) (body : Value) :
    (evaluateReservation .none eventType resourceKey opId body).Returns := by
  have hfail : ∀ key retryable error,
      (recordReservationFailure .none key resourceKey opId retryable error).Returns := fun _ _ _ =>
    (Tx.Returns.read _).bind fun _ => (Tx.Returns.write _).bind fun _ => .pure _
  unfold evaluateReservation
  refine .ite (.pure _) ?_
  split
  · exact .pure _
  · refine (Tx.Returns.read _).bind fun node => ?_
    cases node with
    | none => exact hfail _ _ _
    | some node => exact .ite (hfail _ _ _) (.ite (hfail _ _ _) ((Tx.Returns.write _).bind fun _ => .pure _))

theorem returns_reserveStage (env : Envelope) (wins : Bool) : (reserveStage .none env wins).Returns :=
  .ite ((returns_evaluateReservation _ _ _ _).bind fun _ => .pure _) (.pure _)

theorem returns_recordConflict (eventId : Int) (head : ReplicationResourceHeadRow) (env : Envelope) (wins : Bool) :
    (recordConflict .none eventId head env wins).Returns := by
  unfold recordConflict
  refine Tx.Returns.bind ?_ fun conflictId => .ite (.ite (.write _) (.write _)) (.pure _)
  exact (Tx.Returns.read _).bind fun _ => (Tx.Returns.write _).bind fun _ => .pure _

theorem returns_conflictStage (eventId : Int) (existing : Option ReplicationResourceHeadRow) (env : Envelope)
    (wins : Bool) : (conflictStage .none eventId existing env wins).Returns := by
  cases existing with
  | none => exact .pure _
  | some head => exact returns_recordConflict eventId head env wins

theorem returns_headStage (eventId : Int) (env : Envelope) (wins : Bool) :
    (headStage .none eventId env wins).Returns :=
  .ite (.write _) (.pure _)

section Stages

variable (env : Envelope) (eventId : Int) (existing : Option ReplicationResourceHeadRow)

def afterReserve (db : Database) : Database :=
  ((reserveStage .none env (shouldReplaceHead existing env.rank)).exec db).2

def afterConflict (db : Database) : Database :=
  ((conflictStage .none eventId existing env (shouldReplaceHead existing env.rank)).exec
    (afterReserve env existing db)).2

def afterHead (db : Database) : Database :=
  ((headStage .none eventId env (shouldReplaceHead existing env.rank)).exec
    (afterConflict env eventId existing db)).2

theorem exec_reserve_then {α : Type} (next : Tx Database α) (db : Database) :
    (reserveStage .none env (shouldReplaceHead existing env.rank) >>= fun _ => next).exec db =
      next.exec (afterReserve env existing db) := by
  obtain ⟨_, h⟩ := returns_reserveStage env (shouldReplaceHead existing env.rank) db
  exact Tx.exec_bind_of_ok h _

theorem exec_conflict_then {α : Type} (next : Tx Database α) (db : Database) :
    (conflictStage .none eventId existing env (shouldReplaceHead existing env.rank) >>= fun _ => next).exec
      (afterReserve env existing db) = next.exec (afterConflict env eventId existing db) := by
  obtain ⟨_, h⟩ := returns_conflictStage eventId existing env (shouldReplaceHead existing env.rank)
    (afterReserve env existing db)
  exact Tx.exec_bind_of_ok h _

theorem exec_head_then {α : Type} (next : Tx Database α) (db : Database) :
    (headStage .none eventId env (shouldReplaceHead existing env.rank) >>= fun _ => next).exec
      (afterConflict env eventId existing db) = next.exec (afterHead env eventId existing db) := by
  obtain ⟨_, h⟩ := returns_headStage eventId env (shouldReplaceHead existing env.rank)
    (afterConflict env eventId existing db)
  exact Tx.exec_bind_of_ok h _

theorem exec_stages_none (db : Database) : (stages .none eventId env existing).exec db =
    (leaseStage .none env).exec (afterHead env eventId existing db) := by
  refine (exec_reserve_then env existing _ db).trans ?_
  rw [exec_conflict_then, exec_head_then]

theorem afterConflict_heads (db : Database) : (afterConflict env eventId existing db).heads = db.heads :=
  (keeps_conflictStage (f := Database.heads) .none eventId existing env _ (fun _ _ _ _ _ => rfl) _).trans
    (keeps_reserveStage (f := Database.heads) .none env _ (fun _ _ => rfl) db)

theorem afterHead_eq (db : Database) : afterHead env eventId existing db =
    if shouldReplaceHead existing env.rank then
      { afterConflict env eventId existing db with
        heads := (afterConflict env eventId existing db).heads.put (env.headRow eventId) }
    else afterConflict env eventId existing db := by
  unfold afterHead headStage
  split
  · rfl
  · rfl

theorem afterHead_heads (db : Database) : (afterHead env eventId existing db).heads =
    if shouldReplaceHead existing env.rank then db.heads.put (env.headRow eventId) else db.heads := by
  rw [afterHead_eq]
  split
  · show (afterConflict env eventId existing db).heads.put _ = _
    rw [afterConflict_heads]
  · exact afterConflict_heads env eventId existing db

end Stages

def markReceived (env : Envelope) (db : Database) : Database :=
  { db with receivedOps := db.receivedOps.put ⟨env.opId, env.controllerId, env.eventType, env.resourceKey⟩ }

theorem exec_apply_of_seen {event : ReplicationEvent} {env : Envelope} (db : Database)
    (hd : decodeEvent event = .ok env) (hs : db.receivedOps.has env.opId = true) :
    (applyReplicationEvent .none event).exec db = (.ok (), db) := by
  unfold applyReplicationEvent
  rw [hd, Tx.exec_ofExcept_ok_bind, call_none, Tx.exec_read_bind, hs]
  rfl

theorem exec_apply_of_new {event : ReplicationEvent} {env : Envelope} (db : Database)
    (hd : decodeEvent event = .ok env) (hs : db.receivedOps.has env.opId = false) :
    (applyReplicationEvent .none event).exec db =
      (arbitrate .none event.eventId env).exec (markReceived env db) := by
  unfold applyReplicationEvent
  rw [hd, Tx.exec_ofExcept_ok_bind, call_none, Tx.exec_read_bind, hs]
  simp [insertReplicationReceivedOp, markReceived, hs]

/-! ### Deliveries -/

structure WellFormedEvent where
  event : ReplicationEvent
  envelope : Envelope
  decoded : decodeEvent event = .ok envelope

namespace WellFormedEvent

def opId (e : WellFormedEvent) : String := e.envelope.opId

def key (e : WellFormedEvent) : String := e.envelope.resourceKey

def rank (e : WellFormedEvent) : ArbitrationRank := e.envelope.rank

def headRow (e : WellFormedEvent) : ReplicationResourceHeadRow := e.envelope.headRow e.event.eventId

@[simp] theorem rank_headRow (e : WellFormedEvent) : e.headRow.rank = e.rank := e.envelope.rank_headRow _

@[simp] theorem resourceKey_headRow (e : WellFormedEvent) : e.headRow.resourceKey = e.key := rfl

end WellFormedEvent

def LogEntry.wellFormed (e : LogEntry) (id : Int) : WellFormedEvent := ⟨e.event id, e.envelope, e.decode_event id⟩

/-- The heads and received operations of `db`, with every other table taken from `around`. -/
def surround (around db : Database) : Database := { around with heads := db.heads, receivedOps := db.receivedOps }

@[simp] theorem surround_heads (around db : Database) : (surround around db).heads = db.heads := rfl

/-- A delivery to a controller: of the tables it finds, the heads and received operations are those the
deliveries before it left, and all others may have been changed by other tasks in any way. -/
def deliver (db : Database) (d : Database × WellFormedEvent) : Database :=
  ((applyReplicationEvent .none d.2.event).exec (surround d.1 db)).2

def deliverAll (db : Database) (log : List (Database × WellFormedEvent)) : Database := log.foldl deliver db

variable {db : Database} {d : Database × WellFormedEvent} {log' : List (Database × WellFormedEvent)}

theorem deliver_of_seen (hs : db.receivedOps.has d.2.opId = true) : deliver db d = surround d.1 db := by
  rw [deliver, exec_apply_of_seen (surround d.1 db) d.2.decoded hs]

theorem deliver_receivedOps (db : Database) (d : Database × WellFormedEvent) (opId : String) :
    (deliver db d).receivedOps.has opId = true ↔ db.receivedOps.has opId = true ∨ opId = d.2.opId := by
  cases hs : db.receivedOps.has d.2.opId with
  | true =>
    rw [deliver_of_seen hs]
    constructor
    · exact .inl
    · rintro (h | rfl)
      · exact h
      · exact hs
  | false =>
    have hk := keeps_arbitrate (f := Database.receivedOps) .none d.2.event.eventId d.2.envelope
      (fun _ _ => rfl) (fun _ _ _ _ _ => rfl) (fun _ _ => rfl) (fun _ _ => rfl)
    rw [deliver, exec_apply_of_new (surround d.1 db) d.2.decoded hs, hk]
    simp only [markReceived, Table.has, Table.get_put]
    split
    · rename_i h
      exact ⟨fun _ => .inr h.symm, fun _ => rfl⟩
    · rename_i h
      exact ⟨.inl, fun h' => h'.resolve_right fun e => h e.symm⟩

/-- The heads after one delivery: a new operation replaces the head of its key exactly when it outranks it. -/
theorem deliver_heads (db : Database) (d : Database × WellFormedEvent) :
    (deliver db d).heads =
      if db.receivedOps.has d.2.opId then db.heads
      else if shouldReplaceHead (db.heads.get d.2.key) d.2.rank then db.heads.put d.2.headRow
      else db.heads := by
  cases hs : db.receivedOps.has d.2.opId with
  | true => rw [deliver_of_seen hs]; rfl
  | false =>
    rw [deliver, exec_apply_of_new (surround d.1 db) d.2.decoded hs, exec_arbitrate rfl, exec_stages_none,
      keeps_leaseStage (f := Database.heads) .none d.2.envelope (fun _ _ => rfl), afterHead_heads]
    rfl

theorem deliver_get (db : Database) (d : Database × WellFormedEvent) (k : String)
    (hs : db.receivedOps.has d.2.opId = false) :
    (deliver db d).heads.get k =
      if d.2.key = k ∧ shouldReplaceHead (db.heads.get k) d.2.rank then some d.2.headRow else db.heads.get k := by
  rw [deliver_heads, hs, if_neg Bool.false_ne_true]
  by_cases hk : d.2.key = k
  · subst hk
    by_cases hr : shouldReplaceHead (db.heads.get d.2.key) d.2.rank = true
    · rw [if_pos hr, if_pos ⟨rfl, hr⟩, ← d.2.resourceKey_headRow, Table.get_put_self]
    · rw [if_neg hr, if_neg fun h => hr h.2]
  · have hno : ¬ (d.2.key = k ∧ shouldReplaceHead (db.heads.get k) d.2.rank = true) := fun h => hk h.1
    rw [if_neg hno]
    split
    · exact Table.get_put_of_ne (r := d.2.headRow) hk
    · rfl

/-! ### The head of a key over a sequence of deliveries -/

def eventsFor (k : String) (log : List (Database × WellFormedEvent)) : List WellFormedEvent :=
  (log.map Prod.snd).filter fun e => e.key = k

def winner (k : String) (log : List (Database × WellFormedEvent)) : Option WellFormedEvent :=
  (eventsFor k log).argmax WellFormedEvent.rank

/-- No two different events of the sequence share an operation identifier. -/
def UniqueOps (log : List (Database × WellFormedEvent)) : Prop :=
  ∀ a ∈ log, ∀ b ∈ log, a.2.opId = b.2.opId → a.2 = b.2

theorem UniqueOps.init {l : List (Database × WellFormedEvent)} (h : UniqueOps (l ++ [d])) : UniqueOps l :=
  fun a ha b hb =>
  h a (List.mem_append_left _ ha) b (List.mem_append_left _ hb)

theorem deliverAll_concat (db : Database) (l : List (Database × WellFormedEvent)) (d : Database × WellFormedEvent) :
    deliverAll db (l ++ [d]) = deliver (deliverAll db l) d := by
  rw [deliverAll, List.foldl_append]; rfl

theorem deliverAll_receivedOps (hr : ∀ opId, db.receivedOps.has opId = false) (log : List (Database × WellFormedEvent))
    (opId : String) : (deliverAll db log).receivedOps.has opId = true ↔ ∃ d ∈ log, d.2.opId = opId := by
  induction log using List.reverseRecOn with
  | nil => simp [deliverAll, hr]
  | append_singleton l d ih =>
    rw [deliverAll_concat, deliver_receivedOps, ih]
    simp only [List.mem_append, List.mem_singleton]
    constructor
    · rintro (⟨a, ha, h⟩ | rfl)
      · exact ⟨a, .inl ha, h⟩
      · exact ⟨d, .inr rfl, rfl⟩
    · rintro ⟨a, ha | rfl, h⟩
      · exact .inl ⟨a, ha, h⟩
      · exact .inr h.symm

private theorem eventsFor_concat (k : String) (l : List (Database × WellFormedEvent))
    (d : Database × WellFormedEvent) :
    eventsFor k (l ++ [d]) = if d.2.key = k then eventsFor k l ++ [d.2] else eventsFor k l := by
  unfold eventsFor
  rw [List.map_append, List.filter_append]
  by_cases h : d.2.key = k <;> simp [h]

private theorem winner_concat_of_mem {k : String} {l : List (Database × WellFormedEvent)} (h : d.2 ∈ l.map Prod.snd) :
    winner k (l ++ [d]) = winner k l := by
  unfold winner
  rw [eventsFor_concat]
  by_cases hk : d.2.key = k
  · have hm : d.2 ∈ eventsFor k l := List.mem_filter.mpr ⟨h, by simpa using hk⟩
    rw [if_pos hk, List.argmax_concat]
    cases hw : List.argmax WellFormedEvent.rank (eventsFor k l) with
    | none => rw [List.argmax_eq_none] at hw; simp [hw] at hm
    | some m => exact if_neg (not_lt.mpr (List.le_of_mem_argmax hm hw))
  · rw [if_neg hk]

theorem deliverAll_get (hr : ∀ opId, db.receivedOps.has opId = false) (hh : ∀ k, db.heads.get k = none)
    (log : List (Database × WellFormedEvent)) (hu : UniqueOps log) (k : String) :
    (deliverAll db log).heads.get k = (winner k log).map WellFormedEvent.headRow := by
  -- Along the deliveries: a repeated event changes neither side, a new one is compared with the winner so far.
  induction log using List.reverseRecOn with
  | nil => simp [deliverAll, winner, eventsFor, hh]
  | append_singleton l d ih =>
    have ih := ih hu.init
    rw [deliverAll_concat]
    cases hs : (deliverAll db l).receivedOps.has d.2.opId with
    | true =>
      obtain ⟨a, ha, hop⟩ := (deliverAll_receivedOps hr l d.2.opId).mp hs
      have hda : a.2 = d.2 := hu a (List.mem_append_left _ ha) d (by simp) hop
      rw [deliver_of_seen hs, surround_heads, ih, winner_concat_of_mem (hda ▸ List.mem_map_of_mem ha)]
    | false =>
      rw [deliver_get _ _ _ hs, ih]
      unfold winner
      rw [eventsFor_concat]
      by_cases hk : d.2.key = k
      · rw [if_pos hk, List.argmax_concat]
        cases hw : List.argmax WellFormedEvent.rank (eventsFor k l) with
        | none => simp [hk, shouldReplaceHead]
        | some m =>
          by_cases hlt : m.rank < d.2.rank
          · have hwin : shouldReplaceHead (some m.headRow) d.2.rank = true := by
              rw [shouldReplaceHead_some, m.rank_headRow]; exact hlt
            simp [hk, hlt, hwin]
          · have hwin : ¬ shouldReplaceHead (some m.headRow) d.2.rank = true := by
              rw [shouldReplaceHead_some, m.rank_headRow]; exact hlt
            simp [hlt, hwin]
      · rw [if_neg hk, if_neg fun h => hk h.1]

variable {log : List (Database × WellFormedEvent)} {k : String}

theorem UniqueOps.rank_injective (hu : UniqueOps log) {e e' : WellFormedEvent} (he : e ∈ log.map Prod.snd)
    (he' : e' ∈ log.map Prod.snd) (h : e.rank = e'.rank) : e = e' := by
  obtain ⟨a, ha, rfl⟩ := List.mem_map.mp he
  obtain ⟨b, hb, rfl⟩ := List.mem_map.mp he'
  exact hu a ha b hb (congrArg ArbitrationRank.opId h)

theorem mem_eventsFor {e : WellFormedEvent} : e ∈ eventsFor k log ↔ e ∈ log.map Prod.snd ∧ e.key = k := by
  simp [eventsFor]

theorem winner_eq_some_iff (hu : UniqueOps log) (e : WellFormedEvent) : winner k log = some e ↔
      e ∈ eventsFor k log ∧ ∀ e' ∈ eventsFor k log, e' ≠ e → compareRank e.rank e'.rank = .gt := by
  constructor
  · intro h
    have hm : e ∈ eventsFor k log := List.argmax_mem h
    refine ⟨hm, fun e' he' hne => (compareRank_eq_gt_iff _ _).mpr (lt_of_le_of_ne (List.le_of_mem_argmax he' h) ?_)⟩
    exact fun heq => hne (hu.rank_injective (mem_eventsFor.mp he').1 (mem_eventsFor.mp hm).1 heq)
  · rintro ⟨hm, hgt⟩
    cases hw : winner k log with
    | none =>
      have : eventsFor k log = [] := List.argmax_eq_none.mp hw
      simp [this] at hm
    | some m =>
      by_contra hne
      have hme : m ≠ e := fun h => hne (congrArg some h)
      have hlt := (compareRank_eq_gt_iff _ _).mp (hgt m (List.argmax_mem hw) hme)
      exact absurd (List.le_of_mem_argmax hm hw) (not_le.mpr hlt)

theorem UniqueOps.of_subset (hu : UniqueOps log) (h : ∀ e ∈ log'.map Prod.snd, e ∈ log.map Prod.snd) :
    UniqueOps log' := by
  intro a ha b hb hop
  obtain ⟨a', ha', hae⟩ := List.mem_map.mp (h a.2 (List.mem_map_of_mem ha))
  obtain ⟨b', hb', hbe⟩ := List.mem_map.mp (h b.2 (List.mem_map_of_mem hb))
  rw [← hae, ← hbe] at hop ⊢
  exact hu a' ha' b' hb' hop

theorem winner_of_dominated (hu : UniqueOps log') (hsub : ∀ e ∈ log.map Prod.snd, e ∈ log'.map Prod.snd)
    (hdom : ∀ e ∈ log'.map Prod.snd, ∃ m ∈ log.map Prod.snd, m.key = e.key ∧ e.rank ≤ m.rank) (k : String) :
    winner k log = winner k log' := by
  refine Option.ext fun e => ?_
  rw [winner_eq_some_iff (hu.of_subset hsub), winner_eq_some_iff hu]
  simp only [mem_eventsFor, compareRank_eq_gt_iff]
  constructor
  · rintro ⟨⟨he, hk⟩, hgt⟩
    refine ⟨⟨hsub e he, hk⟩, fun e' he' hne => ?_⟩
    obtain ⟨m, hm, hmk, hle⟩ := hdom e' he'.1
    by_cases hme : m = e
    · subst hme
      exact lt_of_le_of_ne hle fun h => hne (hu.rank_injective he'.1 (hsub m he) h)
    · exact lt_of_le_of_lt hle (hgt m ⟨hm, hmk.trans he'.2⟩ hme)
  · rintro ⟨⟨he, hk⟩, hgt⟩
    obtain ⟨m, hm, hmk, hle⟩ := hdom e he
    have hme : m = e := by
      by_contra hne
      exact absurd (hgt m ⟨hsub m hm, hmk.trans hk⟩ hne) (not_lt.mpr hle)
    exact ⟨⟨hme ▸ hm, hk⟩, fun e' he' hne => hgt e' ⟨hsub e' he'.1, he'.2⟩ hne⟩

theorem winner_congr (hu : UniqueOps log) (h : ∀ e, e ∈ log.map Prod.snd ↔ e ∈ log'.map Prod.snd) (k : String) :
    winner k log = winner k log' :=
  (winner_of_dominated hu (fun e he => (h e).mpr he) (fun e he => ⟨e, (h e).mp he, rfl, le_rfl⟩) k).symm

theorem deliver_get_mono (db : Database) (d : Database × WellFormedEvent) {old : ReplicationResourceHeadRow}
    (h : db.heads.get k = some old) :
    ∃ new, (deliver db d).heads.get k = some new ∧ (new = old ∨ compareRank new.rank old.rank = .gt) := by
  cases hs : db.receivedOps.has d.2.opId with
  | true => exact ⟨old, by rw [deliver_of_seen hs]; exact h, .inl rfl⟩
  | false =>
    rw [deliver_get db d k hs, h]
    split
    · rename_i hw
      refine ⟨d.2.headRow, rfl, .inr ?_⟩
      rw [compareRank_eq_gt_iff, d.2.rank_headRow]
      exact (shouldReplaceHead_some _ _).mp hw.2
    · exact ⟨old, rfl, .inl rfl⟩

/-! ### What a database has received -/

/-- The heads and received operations of `db` are what the deliveries `log` left, on a controller that started
without any. -/
structure Received (db : Database) (log : List (Database × WellFormedEvent)) : Prop where
  heads : db.heads = (deliverAll .empty log).heads
  receivedOps : db.receivedOps = (deliverAll .empty log).receivedOps

namespace Received

variable {db : Database} {log : List (Database × WellFormedEvent)}

theorem apply (h : Received db log) (e : WellFormedEvent) :
    Received ((applyReplicationEvent .none e.event).exec db).2 (log ++ [(db, e)]) := by
  have hdb : surround db (deliverAll .empty log) = db := by rw [surround, ← h.heads, ← h.receivedOps]
  have hdeliver : deliverAll .empty (log ++ [(db, e)]) = ((applyReplicationEvent .none e.event).exec db).2 := by
    rw [deliverAll_concat, deliver, hdb]
  exact ⟨congrArg Database.heads hdeliver.symm, congrArg Database.receivedOps hdeliver.symm⟩

theorem congr (h : Received db log) {db' : Database} (hh : db'.heads = db.heads)
    (hr : db'.receivedOps = db.receivedOps) : Received db' log := ⟨hh.trans h.heads, hr.trans h.receivedOps⟩

theorem get (h : Received db log) (hu : UniqueOps log) (k : String) :
    db.heads.get k = (winner k log).map WellFormedEvent.headRow := by
  rw [h.heads]
  exact deliverAll_get (fun _ => rfl) (fun _ => rfl) log hu k

theorem exists_event (h : Received db log) (hu : UniqueOps log) {head : ReplicationResourceHeadRow}
    (hh : head ∈ db.heads.rows) : ∃ e ∈ log.map Prod.snd, head = e.headRow := by
  have hget := h.get hu head.resourceKey
  rw [Table.get_of_mem hh] at hget
  obtain ⟨e, he, heq⟩ := Option.map_eq_some_iff.mp hget.symm
  exact ⟨e, (mem_eventsFor.mp (List.argmax_mem he)).1, heq.symm⟩

theorem has_iff (h : Received db log) (opId : String) :
    db.receivedOps.has opId = true ↔ ∃ d ∈ log, d.2.opId = opId := by
  rw [h.receivedOps]
  exact deliverAll_receivedOps (fun _ => rfl) log opId

end Received

def earlierUpdate : WellFormedEvent :=
  LogEntry.wellFormed ⟨"op-1", 100, "ctrl-a", "DC1", "vm.update", "vm/web", .object [("cpu", .number (.int 2))], rfl⟩ 7

def laterUpdate : WellFormedEvent :=
  LogEntry.wellFormed ⟨"op-2", 101, "ctrl-a", "DC1", "vm.update", "vm/web", .object [("cpu", .number (.int 4))], rfl⟩ 8

theorem uniqueOps_updates :
    UniqueOps [(.empty, laterUpdate), (.empty, earlierUpdate), (.empty, laterUpdate)] := by
  have hne : laterUpdate.opId ≠ earlierUpdate.opId := by decide
  intro a ha b hb hop
  simp only [List.mem_cons, List.not_mem_nil, or_false] at ha hb
  rcases ha with rfl | rfl | rfl <;> rcases hb with rfl | rfl | rfl <;>
    first | rfl | exact absurd hop hne | exact absurd hop.symm hne

end Kcore
