import Mathlib.Data.List.Pairwise
import Kcore.Replication.Materialize

/-!
# Convergence of controllers

Several controllers mutate resources, pull each other's events and materialise them. A local mutation writes the
domain row and appends its event to the controller's own outbox; the event never becomes a head there, so it
takes no part in the arbitration on the controller that emitted it. What is materialised there for the same key
therefore overwrites the local row, whichever of the two events has the greater rank. Where no write, local or
by the materialiser, is outranked by the event the row came from, the controllers converge
(`controllers_converge`).
-/

namespace Kcore

open Keyed Machine

/-! ### Rows of resource keys -/

/-- How the domain row of a resource key is read, and which row a head gives. -/
structure RowView (ρ : Type) where
  row : String → DomainTables → ρ
  rowOf : ReplicationResourceHeadRow → ρ

namespace RowView

variable {ρ : Type} (v : RowView ρ)

/-- The row of the head's key is the one the head gives, and the rows of all other keys are as before. -/
def Written (head : ReplicationResourceHeadRow) (before after : DomainTables) : Prop :=
  v.row head.resourceKey after = v.rowOf head ∧ ∀ k, k ≠ head.resourceKey → v.row k after = v.row k before

/-- Applying the head never fails and writes the row of its key, whatever the domain tables hold. -/
def IsRowEvent (head : ReplicationResourceHeadRow) : Prop :=
  ∀ freshId d, ((applyHeadToDomain freshId head).exec d).1 = .ok () ∧
    v.Written head d ((applyHeadToDomain freshId head).exec d).2

end RowView

/-! ### The controllers -/

/-- The databases of the controllers, all events emitted so far with the controller that emitted each, and for
each controller and key the head the stored row came from. -/
structure Cluster (κ : Type) where
  db : κ → Database
  emitted : List (κ × WellFormedEvent)
  source : κ → String → Option ReplicationResourceHeadRow

inductive ClusterAction (κ : Type) where
  /-- The domain write of a request, and its event. -/
  | mutate (c : κ) (e : LogEntry) (write : DomainTables → DomainTables)
  /-- An event another controller emitted is pulled and applied. -/
  | deliver (c : κ) (e : WellFormedEvent)
  | pass (c : κ) (draw : String → String)

namespace Cluster

variable {κ ρ : Type}

section Steps

variable [DecidableEq κ]

def outbox (s : Cluster κ) (c : κ) : List WellFormedEvent := (s.emitted.filter fun x => x.1 = c).map Prod.snd

def nextEvent (s : Cluster κ) (c : κ) (e : LogEntry) : WellFormedEvent := e.wellFormed ((s.outbox c).length + 1)

def step (s : Cluster κ) : ClusterAction κ → Cluster κ
  | .mutate c e write => {
      db := Function.update s.db c { s.db c with domain := write (s.db c).domain }
      emitted := s.emitted ++ [(c, s.nextEvent c e)]
      source := Function.update s.source c
        (Function.update (s.source c) e.resourceKey (some (s.nextEvent c e).headRow)) }
  | .deliver c e => { s with
      db := Function.update s.db c ((applyReplicationEvent .none e.event).exec (s.db c)).2 }
  | .pass c draw => { s with
      db := Function.update s.db c (passOnce (s.db c) draw)
      source := Function.update s.source c fun k =>
        if (passOnce (s.db c) draw).materialized.get k = (s.db c).materialized.get k then s.source c k
        else (s.db c).heads.get k }

def start (d : DomainTables) : Cluster κ := ⟨fun _ => { Database.empty with domain := d }, [], fun _ _ => none⟩

/-- A mutation draws a new operation identifier, and what is delivered was emitted by another controller. -/
def Legal (s : Cluster κ) : ClusterAction κ → Prop
  | .mutate _ e _ => ∀ x ∈ s.emitted, x.2.opId ≠ e.opId
  | .deliver c e => ∃ c', c' ≠ c ∧ (c', e) ∈ s.emitted
  | .pass _ _ => True

def WritesInOrder (v : RowView ρ) (s : Cluster κ) : ClusterAction κ → Prop
  | .mutate c e write => v.IsRowEvent (s.nextEvent c e).headRow ∧
      v.Written (s.nextEvent c e).headRow (s.db c).domain (write (s.db c).domain) ∧
      ∀ b, s.source c e.resourceKey = some b → b.rank < (s.nextEvent c e).rank
  | .deliver _ _ => True
  | .pass c _ => ∀ head, (pendingHeads (s.db c)).head? = some head →
      ∀ b, s.source c head.resourceKey = some b → b.rank < head.rank

end Steps

/-- Every event was applied by every controller that did not emit it, and no controller has anything to
materialise. -/
def Quiescent (s : Cluster κ) : Prop :=
  (∀ c, ∀ x ∈ s.emitted, x.1 ≠ c → (s.db c).receivedOps.has x.2.opId = true) ∧
  ∀ c, ∃ draw, ((processMaterializationOnce draw).exec (s.db c)).1 = .ok false

/-! ### One controller -/

/-- What holds of one controller: it has received events of others; each row comes from the event recorded for
it, or is the row it started with; and neither an event of its own nor a head it materialised outranks the event
the row of its key comes from. -/
structure ControllerOk (v : RowView ρ) (d₀ : DomainTables) (emitted : List (κ × WellFormedEvent)) (c : κ)
    (db : Database) (source : String → Option ReplicationResourceHeadRow) : Prop where
  received : ∃ log, Received db log ∧ ∀ e ∈ log.map Prod.snd, ∃ c', c' ≠ c ∧ (c', e) ∈ emitted
  materialized : ∀ row ∈ db.materialized.rows, db.receivedOps.has row.lastOpId = true
  unwritten : ∀ k, source k = none → v.row k db.domain = v.row k d₀
  written : ∀ k b, source k = some b →
    v.row k db.domain = v.rowOf b ∧ ∃ x ∈ emitted, b = x.2.headRow ∧ x.2.key = k
  own : ∀ e, (c, e) ∈ emitted → ∃ b, source e.key = some b ∧ e.rank ≤ b.rank
  marked : ∀ head ∈ db.heads.rows, isMaterialized db head = true →
    ∃ b, source head.resourceKey = some b ∧ head.rank ≤ b.rank

/-- The events of a cluster: distinct operations, and each writes the row of its key. -/
structure EventsOk (v : RowView ρ) (emitted : List (κ × WellFormedEvent)) : Prop where
  distinct : emitted.Pairwise fun x y => x.2.opId ≠ y.2.opId
  rows : ∀ x ∈ emitted, v.IsRowEvent x.2.headRow

def Ok (v : RowView ρ) (d₀ : DomainTables) (s : Cluster κ) : Prop :=
  EventsOk v s.emitted ∧ ∀ c, ControllerOk v d₀ s.emitted c (s.db c) (s.source c)

variable {v : RowView ρ} {d₀ : DomainTables} {emitted : List (κ × WellFormedEvent)} {c : κ} {db : Database}
  {source : String → Option ReplicationResourceHeadRow}

theorem EventsOk.eq_of_opId (h : EventsOk v emitted) {x y : κ × WellFormedEvent} (hx : x ∈ emitted) (hy : y ∈ emitted)
    (hop : x.2.opId = y.2.opId) : x = y := by
  have hsymm : Std.Symm fun x y : κ × WellFormedEvent => x.2.opId ≠ y.2.opId := ⟨fun _ _ hne => hne.symm⟩
  by_contra hne
  exact h.distinct.forall hx hy hne hop

theorem EventsOk.uniqueOps (h : EventsOk v emitted) {log : List (Database × WellFormedEvent)}
    (hlog : ∀ e ∈ log.map Prod.snd, ∃ c', c' ≠ c ∧ (c', e) ∈ emitted) : UniqueOps log := by
  intro a ha b hb hop
  obtain ⟨ca, -, hca⟩ := hlog a.2 (List.mem_map_of_mem ha)
  obtain ⟨cb, -, hcb⟩ := hlog b.2 (List.mem_map_of_mem hb)
  exact (Prod.mk.inj (h.eq_of_opId hca hcb hop)).2

variable {head : ReplicationResourceHeadRow}

theorem ControllerOk.exists_event (h : ControllerOk v d₀ emitted c db source) (hev : EventsOk v emitted)
    (hh : head ∈ db.heads.rows) : ∃ x ∈ emitted, head = x.2.headRow := by
  obtain ⟨log, hrec, hlog⟩ := h.received
  obtain ⟨e, he, heq⟩ := hrec.exists_event (hev.uniqueOps hlog) hh
  obtain ⟨c', -, hmem⟩ := hlog e he
  exact ⟨(c', e), hmem, heq⟩

theorem ControllerOk.mono (h : ControllerOk v d₀ emitted c db source) {c' : κ} (hne : c' ≠ c) (e : WellFormedEvent) :
    ControllerOk v d₀ (emitted ++ [(c', e)]) c db source := by
  obtain ⟨log, hrec, hlog⟩ := h.received
  refine ⟨⟨log, hrec, fun a ha => ?_⟩, h.materialized, h.unwritten, fun k b hb => ?_, fun a ha => ?_, h.marked⟩
  · obtain ⟨c'', hc, hmem⟩ := hlog a ha
    exact ⟨c'', hc, List.mem_append_left _ hmem⟩
  · obtain ⟨hrow, x, hx, hxb⟩ := h.written k b hb
    exact ⟨hrow, x, List.mem_append_left _ hx, hxb⟩
  · rcases List.mem_append.mp ha with ha | ha
    · exact h.own a ha
    · exact absurd (congrArg Prod.fst (List.mem_singleton.mp ha)).symm hne

/-- A write of a row by an event that outranks the one the row came from: by a mutation, which emits the event,
or by a pass, which marks its head. -/
theorem controllerOk_write (h : ControllerOk v d₀ emitted c db source) {emitted' : List (κ × WellFormedEvent)}
    (hsub : ∀ x ∈ emitted, x ∈ emitted') {x : κ × WellFormedEvent} (hx : x ∈ emitted') {d : DomainTables}
    {marks : Table ReplicationMaterializedHeadRow.resourceKey} (hwritten : v.Written x.2.headRow db.domain d)
    (hrank : ∀ b, source x.2.key = some b → b.rank < x.2.rank)
    (hreceived : ∀ row ∈ marks.rows, db.receivedOps.has row.lastOpId = true)
    (hown : ∀ e, (c, e) ∈ emitted' → (c, e) ∈ emitted ∨ e = x.2)
    (hmarks : ∀ head ∈ db.heads.rows, isMaterialized { db with domain := d, materialized := marks } head = true →
      isMaterialized db head = true ∨ head = x.2.headRow) :
    ControllerOk v d₀ emitted' c { db with domain := d, materialized := marks }
      (Function.update source x.2.key (some x.2.headRow)) := by
  have hother : ∀ {k}, k ≠ x.2.key → Function.update source x.2.key (some x.2.headRow) k = source k := fun hk =>
    Function.update_of_ne hk _ _
  have hself : Function.update source x.2.key (some x.2.headRow) x.2.key = some x.2.headRow :=
    Function.update_self _ _ _
  -- Whatever the row came from is outranked by the new event.
  have hraise : ∀ {k r}, (∃ b, source k = some b ∧ r ≤ b.rank) →
      ∃ b, Function.update source x.2.key (some x.2.headRow) k = some b ∧ r ≤ b.rank := by
    rintro k r ⟨b, hb, hle⟩
    by_cases hk : k = x.2.key
    · subst hk
      exact ⟨x.2.headRow, hself, by rw [x.2.rank_headRow]; exact hle.trans (hrank b hb).le⟩
    · exact ⟨b, by rw [hother hk, hb], hle⟩
  obtain ⟨log, hrec, hlog⟩ := h.received
  refine ⟨⟨log, hrec.congr rfl rfl, fun a ha => ?_⟩, hreceived, fun k hk => ?_, fun k b hb => ?_, fun a ha => ?_,
    fun head hh hm => ?_⟩
  · obtain ⟨c', hc, ha⟩ := hlog a ha
    exact ⟨c', hc, hsub _ ha⟩
  · by_cases hke : k = x.2.key
    · rw [hke, hself] at hk
      exact absurd hk (by simp)
    · rw [hother hke] at hk
      exact (hwritten.2 k hke).trans (h.unwritten k hk)
  · by_cases hke : k = x.2.key
    · subst hke
      obtain rfl := Option.some.inj (hself.symm.trans hb)
      exact ⟨hwritten.1, x, hx, rfl, rfl⟩
    · rw [hother hke] at hb
      obtain ⟨hrow, y, hy, hyb⟩ := h.written k b hb
      exact ⟨(hwritten.2 k hke).trans hrow, y, hsub y hy, hyb⟩
  · rcases hown a ha with ha | rfl
    · exact hraise (h.own a ha)
    · exact ⟨x.2.headRow, hself, by rw [x.2.rank_headRow]⟩
  · rcases hmarks head hh hm with hm | rfl
    · exact hraise (h.marked head hh hm)
    · exact ⟨x.2.headRow, hself, le_rfl⟩

theorem controllerOk_deliver (h : ControllerOk v d₀ emitted c db source) {e : WellFormedEvent} {c' : κ} (hne : c' ≠ c)
    (hmem : (c', e) ∈ emitted) :
    ControllerOk v d₀ emitted c ((applyReplicationEvent .none e.event).exec db).2 source := by
  obtain ⟨log, hrec, hlog⟩ := h.received
  have hops := fun op => deliver_receivedOps db (db, e) op
  have hdom := apply_domain e.event db
  have hmat := apply_materialized e.event db
  refine ⟨⟨log ++ [(db, e)], hrec.apply e, fun a ha => ?_⟩, fun row hr => ?_, fun k hk => ?_, fun k b hb => ?_,
    h.own, fun head hh hm => ?_⟩
  · rw [List.map_append] at ha
    rcases List.mem_append.mp ha with ha | ha
    · exact hlog a ha
    · obtain rfl : a = e := List.mem_singleton.mp ha
      exact ⟨c', hne, hmem⟩
  · exact (hops row.lastOpId).mpr (.inl (h.materialized row (hmat ▸ hr)))
  · rw [hdom]
    exact h.unwritten k hk
  · rw [hdom]
    exact h.written k b hb
  · rw [isMaterialized_apply] at hm
    rcases mem_heads_apply hh with hh | ⟨hnew, rfl⟩
    · exact h.marked head hh hm
    · -- The operation would have been received before.
      obtain ⟨row, hrow, hop⟩ := isMaterialized_iff.mp hm
      have hseen := h.materialized row (Table.mem_of_get hrow)
      rw [show row.lastOpId = e.opId from hop, hnew] at hseen
      exact absurd hseen Bool.false_ne_true

theorem passOnce_of_rows (hrows : ∀ head ∈ db.heads.rows, v.IsRowEvent head) (draw : String → String) :
    (pendingHeads db = [] ∧ (processMaterializationOnce draw).exec db = (.ok false, db)) ∨
    ∃ head rest d, pendingHeads db = head :: rest ∧ v.Written head db.domain d ∧
      (processMaterializationOnce draw).exec db = (.ok true, { db with
        domain := d, materialized := db.materialized.put ⟨head.resourceKey, head.lastOpId, head.lastEventType⟩ }) := by
  have hok : ∀ head ∈ pendingHeads db, (headResult draw db head).1 = .ok () := fun head hh =>
    (hrows head (mem_pendingHeads hh).1 (draw head.resourceKey) db.domain).1
  have hno : ∀ head ∈ pendingHeads db, retries draw db head = false := by
    intro head hh
    unfold retries
    rw [hok head hh]
  have hclean : CleanRetries draw db := fun head hh hr => absurd hr (by simp [hno head hh])
  rcases pass_cases hclean with ⟨heq, hall⟩ | ⟨before, head, after, hp, -, hbefore, heq⟩
  · left
    refine ⟨List.eq_nil_iff_forall_not_mem.mpr fun head hh => ?_, heq⟩
    exact absurd (hall head hh) (by simp [hno head hh])
  · right
    obtain rfl : before = [] := List.eq_nil_iff_forall_not_mem.mpr fun h hh =>
      absurd (hbefore h hh) (by simp [hno h (hp ▸ List.mem_append_left _ hh)])
    have hh : head ∈ pendingHeads db := hp ▸ List.mem_cons_self
    refine ⟨head, after, (headResult draw db head).2, hp,
      (hrows head (mem_pendingHeads hh).1 (draw head.resourceKey) db.domain).2, heq.trans ?_⟩
    unfold settleHead
    rw [show headResult draw db head = (.ok (), (headResult draw db head).2) from Prod.ext (hok head hh) rfl]

theorem source_after_pass (hh : head ∈ pendingHeads db) :
    (fun k => if (db.materialized.put ⟨head.resourceKey, head.lastOpId, head.lastEventType⟩).get k =
        db.materialized.get k then source k else db.heads.get k) =
      Function.update source head.resourceKey (some head) := by
  obtain ⟨hrow, hm⟩ := mem_pendingHeads hh
  funext k
  rw [Table.get_put]
  by_cases hk : head.resourceKey = k
  · subst hk
    have hne : ¬ some (⟨head.resourceKey, head.lastOpId, head.lastEventType⟩ : ReplicationMaterializedHeadRow) =
        db.materialized.get head.resourceKey := fun heq =>
      absurd (isMaterialized_iff.mpr ⟨_, heq.symm, rfl⟩) (by simp [hm])
    rw [if_pos rfl, if_neg hne, Function.update_self, Table.get_of_mem hrow]
  · rw [if_neg hk, if_pos rfl, Function.update_of_ne (Ne.symm hk)]

theorem controllerOk_pass (h : ControllerOk v d₀ emitted c db source) (hev : EventsOk v emitted)
    (hh : head ∈ pendingHeads db) {d : DomainTables} (hwritten : v.Written head db.domain d)
    (hrank : ∀ b, source head.resourceKey = some b → b.rank < head.rank) :
    ControllerOk v d₀ emitted c { db with
        domain := d, materialized := db.materialized.put ⟨head.resourceKey, head.lastOpId, head.lastEventType⟩ }
      (Function.update source head.resourceKey (some head)) := by
  obtain ⟨hrow, hm⟩ := mem_pendingHeads hh
  obtain ⟨log, hrec, hlog⟩ := h.received
  obtain ⟨e, he, rfl⟩ := hrec.exists_event (hev.uniqueOps hlog) hrow
  obtain ⟨c', hc', hmem⟩ := hlog e he
  have hget : ∀ other ∈ db.heads.rows, e.headRow.resourceKey = other.resourceKey → other = e.headRow := by
    intro other ho hk
    have hother := Table.get_of_mem ho
    rw [← hk, Table.get_of_mem hrow] at hother
    exact (Option.some.inj hother).symm
  refine controllerOk_write (x := (c', e)) h (fun _ hx => hx) hmem hwritten (fun b hb => ?_) (fun row hr => ?_)
    (fun _ ha => .inl ha) (fun other ho hmo => ?_)
  · rw [← e.rank_headRow]
    exact hrank b hb
  · rcases Table.mem_put.mp hr with rfl | ⟨hr, -⟩
    · obtain ⟨d, hd, hde⟩ := List.mem_map.mp he
      exact (hrec.has_iff _).mpr ⟨d, hd, by rw [hde]; rfl⟩
    · exact h.materialized row hr
  · by_cases hk : e.headRow.resourceKey = other.resourceKey
    · exact .inr (hget other ho hk)
    · left
      rw [isMaterialized_iff] at hmo ⊢
      let mark : ReplicationMaterializedHeadRow :=
        ⟨e.headRow.resourceKey, e.headRow.lastOpId, e.headRow.lastEventType⟩
      rw [← Table.get_put_of_ne (r := mark) hk]
      exact hmo

/-- The event of greatest rank for its key reaches every controller: its row comes from no event of smaller
rank. -/
theorem source_of_greatest {s : Cluster κ} (h : Ok v d₀ s) (hq : s.Quiescent) (hw : ∀ c, InWindow (s.db c))
    {w : κ × WellFormedEvent} (hmem : w ∈ s.emitted) (hmax : ∀ x ∈ s.emitted, x.2.key = w.2.key → x.2.rank ≤ w.2.rank)
    (c : κ) : ∃ b, s.source c w.2.key = some b ∧ w.2.rank ≤ b.rank := by
  obtain ⟨hev, hctrl⟩ := h
  by_cases hc : w.1 = c
  · exact (hctrl c).own w.2 (hc ▸ hmem)
  -- On another controller the event was received, so it is the head of its key, and the head is materialised.
  obtain ⟨log, hrec, hlog⟩ := (hctrl c).received
  have hu := hev.uniqueOps hlog
  have hin : w.2 ∈ log.map Prod.snd := by
    obtain ⟨d, hd, hop⟩ := (hrec.has_iff _).mp (hq.1 c w hmem hc)
    obtain ⟨c', -, hd'⟩ := hlog d.2 (List.mem_map_of_mem hd)
    have heq : (c', d.2) = w := hev.eq_of_opId hd' hmem hop
    rw [← heq]
    exact List.mem_map_of_mem hd
  have hwinner : winner w.2.key log = some w.2 := by
    refine (winner_eq_some_iff hu w.2).mpr ⟨mem_eventsFor.mpr ⟨hin, rfl⟩, fun e he hne => ?_⟩
    obtain ⟨he, hk⟩ := mem_eventsFor.mp he
    obtain ⟨c', -, he'⟩ := hlog e he
    rw [compareRank_eq_gt_iff]
    exact lt_of_le_of_ne (hmax (c', e) he' hk) fun hr => hne (hu.rank_injective he hin hr)
  have hget := hrec.get hu w.2.key
  rw [hwinner] at hget
  have hrow : w.2.headRow ∈ (s.db c).heads.rows := Table.mem_of_get hget
  have hdone : isMaterialized (s.db c) w.2.headRow = true := by
    by_contra hnot
    have hrows : ∀ head ∈ (s.db c).heads.rows, v.IsRowEvent head := by
      intro head hh
      obtain ⟨x, hx, rfl⟩ := (hctrl c).exists_event hev hh
      exact hev.rows x hx
    have hpending : w.2.headRow ∈ pendingHeads (s.db c) :=
      List.mem_filter.mpr ⟨hw c _ hrow (by simpa using hnot), by simpa using hnot⟩
    obtain ⟨draw, hidle⟩ := hq.2 c
    rcases passOnce_of_rows hrows draw with ⟨hnone, -⟩ | ⟨_, _, _, -, -, heq⟩
    · rw [hnone] at hpending
      exact absurd hpending List.not_mem_nil
    · rw [heq] at hidle
      exact absurd hidle (by simp)
  obtain ⟨b, hb, hle⟩ := (hctrl c).marked _ hrow hdone
  exact ⟨b, hb, by rwa [w.2.rank_headRow] at hle⟩

/-! ### Runs -/

theorem ok_start (d₀ : DomainTables) : Ok v d₀ (start d₀ : Cluster κ) := by
  refine ⟨⟨.nil, fun _ hx => absurd hx List.not_mem_nil⟩, fun c => ?_⟩
  refine ⟨⟨[], ⟨rfl, rfl⟩, fun _ he => absurd he List.not_mem_nil⟩, fun _ hr => absurd hr List.not_mem_nil,
    fun _ _ => rfl, fun _ _ hb => absurd hb (by simp [start]), fun _ he => absurd he List.not_mem_nil,
    fun _ hh => absurd hh List.not_mem_nil⟩

variable [DecidableEq κ] {s : Cluster κ}

theorem controllers_update {emitted : List (κ × WellFormedEvent)} {c : κ} {db : Database}
    {source : String → Option ReplicationResourceHeadRow} (hself : ControllerOk v d₀ emitted c db source)
    (hothers : ∀ c', c' ≠ c → ControllerOk v d₀ emitted c' (s.db c') (s.source c')) (c' : κ) :
    ControllerOk v d₀ emitted c' (Function.update s.db c db c') (Function.update s.source c source c') := by
  by_cases hc : c' = c
  · subst hc
    rw [Function.update_self, Function.update_self]
    exact hself
  · rw [Function.update_of_ne hc, Function.update_of_ne hc]
    exact hothers c' hc

theorem ok_step (a : ClusterAction κ) (h : Ok v d₀ s) (hlegal : s.Legal a) (horder : s.WritesInOrder v a) :
    Ok v d₀ (s.step a) := by
  obtain ⟨hev, hctrl⟩ := h
  cases a with
  | mutate c e write =>
    obtain ⟨hrowEvent, hwritten, hrank⟩ := horder
    refine ⟨⟨?_, fun x hx => ?_⟩, ?_⟩
    · refine List.pairwise_append.mpr ⟨hev.distinct, List.pairwise_singleton _ _, fun x hx y hy => ?_⟩
      rw [List.mem_singleton.mp hy]
      exact hlegal x hx
    · rcases List.mem_append.mp hx with hx | hx
      · exact hev.rows x hx
      · rw [List.mem_singleton.mp hx]
        exact hrowEvent
    · refine controllers_update ?_ fun c' hc => (hctrl c').mono (Ne.symm hc) _
      refine controllerOk_write (x := (c, s.nextEvent c e)) (hctrl c) (fun _ hx => List.mem_append_left _ hx)
        (List.mem_append_right _ (List.mem_singleton_self _)) hwritten hrank (hctrl c).materialized
        (fun a ha => ?_) (fun _ _ hm => .inl hm)
      rcases List.mem_append.mp ha with ha | ha
      · exact .inl ha
      · exact .inr (congrArg Prod.snd (List.mem_singleton.mp ha))
  | deliver c e =>
    obtain ⟨c', hc', hmem⟩ := hlegal
    refine ⟨hev, fun c'' => ?_⟩
    have := controllers_update (s := s) (controllerOk_deliver (hctrl c) hc' hmem) (fun c' _ => hctrl c') c''
    rwa [Function.update_eq_self] at this
  | pass c draw =>
    refine ⟨hev, controllers_update ?_ fun c' _ => hctrl c'⟩
    have hrows : ∀ head ∈ (s.db c).heads.rows, v.IsRowEvent head := by
      intro head hh
      obtain ⟨x, hx, rfl⟩ := (hctrl c).exists_event hev hh
      exact hev.rows x hx
    unfold passOnce
    rcases passOnce_of_rows hrows draw with ⟨-, heq⟩ | ⟨head, rest, d, hp, hwritten, heq⟩
    · have hsame : (fun k => if (s.db c).materialized.get k = (s.db c).materialized.get k then s.source c k
          else (s.db c).heads.get k) = s.source c := funext fun k => if_pos rfl
      rw [heq, hsame]
      exact hctrl c
    · have hh : head ∈ pendingHeads (s.db c) := hp ▸ List.mem_cons_self
      rw [heq, source_after_pass hh]
      exact controllerOk_pass (hctrl c) hev hh hwritten (horder head (by rw [hp]; rfl))

/-- **Convergence.** If no write of a row is outranked by the event the row came from, then once every event was applied
everywhere and nothing is left to materialise, the row of each key is the same on every controller: that of the event
that outranks all others of the key, or the row it started with. -/
theorem controllers_converge (v : RowView ρ) (d₀ : DomainTables) (acts : List (ClusterAction κ))
    (hlegal : Each step Legal (start d₀) acts) (horder : Each step (WritesInOrder v) (start d₀) acts)
    (hq : (run step (start d₀) acts).Quiescent) (hw : ∀ c, InWindow ((run step (start d₀) acts).db c)) (k : String) :
    (∃ w ∈ (run step (start d₀) acts).emitted, w.2.key = k ∧
      (∀ x ∈ (run step (start d₀) acts).emitted, x.2.key = k → x ≠ w → compareRank w.2.rank x.2.rank = .gt) ∧
      ∀ c, v.row k ((run step (start d₀) acts).db c).domain = v.rowOf w.2.headRow) ∨
    ((∀ x ∈ (run step (start d₀) acts).emitted, x.2.key ≠ k) ∧
      ∀ c, v.row k ((run step (start d₀) acts).db c).domain = v.row k d₀) := by
  have hok : Ok v d₀ (run step (start d₀) acts) :=
    (along_of_each (ok_start d₀) (fun _ a hs ha => ok_step a hs ha.1 ha.2) (hlegal.and horder)).last
  generalize run step (start d₀) acts = s at hq hw hok ⊢
  have hinj : ∀ x ∈ s.emitted, ∀ y ∈ s.emitted, x.2.rank = y.2.rank → x = y := fun x hx y hy hr =>
    hok.1.eq_of_opId hx hy (congrArg ArbitrationRank.opId hr)
  cases hmax : (s.emitted.filter fun x => x.2.key = k).argmax fun x => x.2.rank with
  | none =>
    right
    have hnone : ∀ x ∈ s.emitted, x.2.key ≠ k := by
      intro x hx hk
      have : x ∈ s.emitted.filter fun x => x.2.key = k := List.mem_filter.mpr ⟨hx, by simpa using hk⟩
      rw [List.argmax_eq_none.mp hmax] at this
      exact absurd this List.not_mem_nil
    refine ⟨hnone, fun c => (hok.2 c).unwritten k ?_⟩
    cases hb : s.source c k with
    | none => rfl
    | some b =>
      obtain ⟨-, x, hx, -, hk⟩ := (hok.2 c).written k b hb
      exact absurd hk (hnone x hx)
  | some w =>
    left
    obtain ⟨hmem, hk⟩ := List.mem_filter.mp (List.argmax_mem hmax)
    obtain rfl : w.2.key = k := by simpa using hk
    have hle : ∀ x ∈ s.emitted, x.2.key = w.2.key → x.2.rank ≤ w.2.rank := fun x hx hxk =>
      List.le_of_mem_argmax (f := fun x : κ × WellFormedEvent => x.2.rank) (a := x)
        (List.mem_filter.mpr ⟨hx, by simpa using hxk⟩) hmax
    refine ⟨w, hmem, rfl, fun x hx hxk hne => ?_, fun c => ?_⟩
    · rw [compareRank_eq_gt_iff]
      exact lt_of_le_of_ne (hle x hx hxk) fun hr => hne (hinj x hx w hmem hr)
    · obtain ⟨b, hb, hwb⟩ := source_of_greatest hok hq hw hmem hle c
      obtain ⟨hrow, y, hy, rfl, hyk⟩ := (hok.2 c).written _ b hb
      rw [y.2.rank_headRow] at hwb
      rw [hrow, hinj y hy w hmem (le_antisymm (hle y hy hyk) hwb)]

end Cluster

/-! ### Public keys -/

def sshKeyResource (name : String) : String := "ssh-key/" ++ name

theorem sshKeyResource_injective : Function.Injective sshKeyResource := by
  intro a b h
  have hl := congrArg String.toList h
  simp only [sshKeyResource, String.toList_append] at hl
  exact String.toList_injective (List.append_cancel_left hl)

/-- The row of `ssh_keys` under a resource key, and the row a head gives: none if it is deleted. -/
def sshKeyRows : RowView (Option SshKeyRow) where
  row k d := d.sshKeys.rows.find? fun r => sshKeyResource r.name = k
  rowOf head :=
    if head.lastEventType = "ssh_key.create" then
      match head.lastBodyJson.str "name", head.lastBodyJson.str "publicKey" with
      | some name, some publicKey => some ⟨name, publicKey⟩
      | _, _ => none
    else none

theorem sshKeyRows_row (name : String) (d : DomainTables) :
    sshKeyRows.row (sshKeyResource name) d = d.sshKeys.get name := by
  unfold sshKeyRows Table.get
  simp only [sshKeyResource_injective.eq_iff]

theorem sshKeyRows_of_ne {k : String} {before after : DomainTables} (name : String)
    (hsame : ∀ n, n ≠ name → after.sshKeys.get n = before.sshKeys.get n) (hk : k ≠ sshKeyResource name) :
    sshKeyRows.row k after = sshKeyRows.row k before := by
  by_cases hform : ∃ n, sshKeyResource n = k
  · obtain ⟨n, rfl⟩ := hform
    rw [sshKeyRows_row, sshKeyRows_row]
    exact hsame n fun h => hk (congrArg sshKeyResource h)
  · have hnone : ∀ d, sshKeyRows.row k d = none := fun d =>
      List.find?_eq_none.mpr fun r _ hr => hform ⟨r.name, of_decide_eq_true hr⟩
    rw [hnone, hnone]

theorem isRowEvent_sshKeyCreate {head : ReplicationResourceHeadRow} (name publicKey : String)
    (htype : head.lastEventType = "ssh_key.create") (hname : head.lastBodyJson.str "name" = some name)
    (hkey : head.lastBodyJson.str "publicKey" = some publicKey) (hres : head.resourceKey = sshKeyResource name) :
    sshKeyRows.IsRowEvent head := by
  intro freshId d
  have hexec : (applyHeadToDomain freshId head).exec d =
      (.ok (), { d with sshKeys := d.sshKeys.put ⟨name, publicKey⟩ }) := by
    unfold applyHeadToDomain
    rw [htype, show handlerFor "ssh_key.create" = applySshKeyCreate from rfl]
    unfold applySshKeyCreate requiredStr
    dsimp only
    rw [hname, hkey]
    rfl
  rw [hexec]
  refine ⟨rfl, ?_, fun k hk => sshKeyRows_of_ne name (fun n hn => ?_) (hres ▸ hk)⟩
  · rw [hres, sshKeyRows_row]
    show (d.sshKeys.put ⟨name, publicKey⟩).get name = _
    rw [Table.get_put, if_pos rfl]
    simp [sshKeyRows, htype, hname, hkey]
  · exact Table.get_put_of_ne (r := (⟨name, publicKey⟩ : SshKeyRow)) (Ne.symm hn)

namespace Cluster

inductive Site where
  | a
  | b
  deriving DecidableEq

def registration (opId : String) (ts : Int) (fits : fitsI64 ts = true) (controllerId publicKey : String) : LogEntry :=
  ⟨opId, ts, controllerId, "DC1", "ssh_key.create", "ssh-key/laptop",
    .object [("name", .string "laptop"), ("publicKey", .string publicKey)], fits⟩

def storeKey (publicKey : String) (d : DomainTables) : DomainTables :=
  { d with sshKeys := d.sshKeys.put ⟨"laptop", publicKey⟩ }

def first : LogEntry := registration "op-1" 1000 (.refl true) "ctrl-a" "ssh-ed25519 AAAA"

def second : LogEntry := registration "op-2" 2000 (.refl true) "ctrl-b" "ssh-ed25519 BBBB"

def registeredOnce : List (ClusterAction Site) :=
  [.mutate .a first (storeKey "ssh-ed25519 AAAA"), .deliver .b (first.wellFormed 1), .pass .b id]

def registeredTwice : List (ClusterAction Site) :=
  [.mutate .a first (storeKey "ssh-ed25519 AAAA"), .mutate .b second (storeKey "ssh-ed25519 BBBB"),
    .deliver .a (second.wellFormed 1), .deliver .b (first.wellFormed 1), .pass .a id, .pass .b id]

theorem isRowEvent_registration (opId : String) (ts : Int) (fits : fitsI64 ts = true) (controllerId publicKey : String)
    (id : Int) : sshKeyRows.IsRowEvent ((registration opId ts fits controllerId publicKey).wellFormed id).headRow :=
  isRowEvent_sshKeyCreate "laptop" publicKey rfl rfl rfl rfl

theorem written_storeKey (opId : String) (ts : Int) (fits : fitsI64 ts = true)
    (controllerId publicKey : String) (id : Int)
    (d : DomainTables) :
    sshKeyRows.Written ((registration opId ts fits controllerId publicKey).wellFormed id).headRow d
      (storeKey publicKey d) :=
  (isRowEvent_registration opId ts fits controllerId publicKey id "" d).2

theorem registeredOnce_legal : Each step Legal (start .empty) registeredOnce :=
  ⟨fun _ hx => absurd hx List.not_mem_nil, ⟨.a, by decide, List.mem_singleton_self _⟩, trivial, trivial⟩

theorem registeredOnce_inOrder : Each step (WritesInOrder sshKeyRows) (start .empty) registeredOnce := by
  refine ⟨⟨isRowEvent_registration _ _ _ _ _ _, written_storeKey _ _ _ _ _ _ _,
      fun b hb => absurd hb (by simp [start])⟩,
    trivial, fun head _ b hb => ?_, trivial⟩
  exact absurd (show none = some b from hb) (by simp)

theorem registeredOnce_quiescent : (run step (start .empty) registeredOnce).Quiescent := by
  refine ⟨fun c x hx hne => ?_, fun c => ⟨id, ?_⟩⟩
  · obtain rfl := List.mem_singleton.mp hx
    cases c with
    | a => exact absurd rfl hne
    | b => decide
  · cases c with
    | a => decide
    | b => decide

/-- Both controllers hold the key one of them registered. -/
theorem registered_key_is_everywhere :
    sshKeyRows.row "ssh-key/laptop" ((run step (start .empty) registeredOnce).db .a).domain =
      some ⟨"laptop", "ssh-ed25519 AAAA"⟩ ∧
    sshKeyRows.row "ssh-key/laptop" ((run step (start .empty) registeredOnce).db .b).domain =
      some ⟨"laptop", "ssh-ed25519 AAAA"⟩ := by
  have hwindow : ∀ c, InWindow ((run step (start .empty) registeredOnce).db c) := by
    intro c
    cases c with
    | a | b => exact inWindow_of_length_le (by decide)
  rcases controllers_converge sshKeyRows .empty registeredOnce registeredOnce_legal registeredOnce_inOrder
    registeredOnce_quiescent hwindow "ssh-key/laptop" with ⟨w, hw, -, -, hrow⟩ | ⟨hnone, -⟩
  · obtain rfl := List.mem_singleton.mp hw
    exact ⟨hrow .a, hrow .b⟩
  · exact absurd rfl (hnone _ (List.mem_singleton_self _))

/-- The second registration outranks the first. Both controllers apply both, nothing is left to materialise, and
each ends with the key the other one registered. -/
theorem concurrent_registrations_swap :
    Each step Legal (start .empty) registeredTwice ∧
    (run step (start .empty) registeredTwice).Quiescent ∧
    compareRank (second.wellFormed 1).rank (first.wellFormed 1).rank = .gt ∧
    sshKeyRows.row "ssh-key/laptop" ((run step (start .empty) registeredTwice).db .a).domain =
      some ⟨"laptop", "ssh-ed25519 BBBB"⟩ ∧
    sshKeyRows.row "ssh-key/laptop" ((run step (start .empty) registeredTwice).db .b).domain =
      some ⟨"laptop", "ssh-ed25519 AAAA"⟩ := by
  refine ⟨⟨fun _ hx => absurd hx List.not_mem_nil, fun x hx => ?_, ⟨.b, by decide, ?_⟩, ⟨.a, by decide, ?_⟩, trivial,
    trivial, trivial⟩, ⟨fun c x hx hne => ?_, fun c => ⟨id, ?_⟩⟩, by decide, by decide, by decide⟩
  · rw [List.mem_singleton.mp hx]
    decide
  · exact List.mem_cons_of_mem _ (List.mem_singleton_self _)
  · exact List.mem_cons_self
  · rcases List.mem_cons.mp hx with rfl | hx
    · cases c with
      | a => exact absurd rfl hne
      | b => decide
    · obtain rfl := List.mem_singleton.mp hx
      cases c with
      | a => decide
      | b => exact absurd rfl hne
  · cases c with
    | a => decide
    | b => decide

end Cluster

end Kcore
