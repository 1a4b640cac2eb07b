import Mathlib.Data.List.Pairwise
import Kcore.Lib.Worklist
import Kcore.Replication.Materialize

/-!
# Schedules of a follower

A follower applies the log of one origin in order and materialises in between. A head that is replaced before it
is materialised is never materialised, so which events reach the domain tables depends on the schedule. Two
schedules agree where the same events do: where each pass finds only kept events pending, and no kept event is
replaced while it is pending. The materialiser is then a first-fit worklist over the kept events of the log,
which grows at its end, and comes to rest in one configuration only (`schedules_agree`).
-/

namespace Kcore

open Keyed Machine Worklist

/-! ### The drawn identifier -/

def volumeUpserts : List String := ["volume.create", "volume.attach", "volume.detach", "volume.update"]

def storedVolume (d : DomainTables) (id name : String) : Option VolumeRow :=
  (d.volumes.get id).or (d.volumes.rows.find? (·.name = name))

/-- The image name of a volume event is in its body or in the row that is stored. -/
def ImageKnown (d : DomainTables) (head : ReplicationResourceHeadRow) : Prop :=
  head.lastEventType ∈ volumeUpserts → (head.lastBodyJson.str "image").isSome = true ∨
    ∀ id name, head.lastBodyJson.str "id" = some id → head.lastBodyJson.str "name" = some name →
      (storedVolume d id name).isSome = true

theorem domainHandlers_ignore_draw : ∀ h ∈ domainHandlers, h.1 ∉ volumeUpserts → ∀ key body i j,
    h.2 ⟨key, body, i⟩ = h.2 ⟨key, body, j⟩ := by
  unfold domainHandlers
  repeat' refine List.forall_mem_cons.mpr ⟨fun hne _ _ _ _ => ?_, ?_⟩
  all_goals first
    | exact fun h hh => absurd hh List.not_mem_nil
    | exact absurd (by decide) hne
    | rfl

theorem exec_applyVolumeUpsert (key freshId : String) (body : Value) (d : DomainTables) :
    (applyVolumeUpsert ⟨key, body, freshId⟩).exec d =
      match body.str "id", body.str "name" with
      | none, _ => (.error ("missing id for " ++ key), d)
      | some _, none => (.error ("missing name for " ++ key), d)
      | some id, some name =>
        ((upsertVolume (volumeFromBody body id name
          ((storedVolume d id name).getD (freshVolume freshId id name)))).context
            ("upsert volume " ++ name)).exec d := by
  unfold applyVolumeUpsert requiredStr
  dsimp only
  cases body.str "id" with
  | none => exact Tx.exec_bind_of_error rfl _
  | some id =>
    refine (Tx.exec_bind_of_ok (a := id) rfl _).trans ?_
    cases body.str "name" with
    | none => exact Tx.exec_bind_of_error rfl _
    | some name =>
      refine (Tx.exec_bind_of_ok (a := name) rfl _).trans ?_
      exact (Tx.exec_read_bind _ _ _).trans (Tx.exec_read_bind _ _ _)

theorem exec_applyVolumeUpsert_draw {body : Value} {d : DomainTables}
    (h : (body.str "image").isSome = true ∨ ∀ id name, body.str "id" = some id → body.str "name" = some name →
      (storedVolume d id name).isSome = true) (key i j : String) :
    (applyVolumeUpsert ⟨key, body, i⟩).exec d = (applyVolumeUpsert ⟨key, body, j⟩).exec d := by
  rw [exec_applyVolumeUpsert, exec_applyVolumeUpsert]
  cases hid : body.str "id" with
  | none => rfl
  | some id =>
    cases hname : body.str "name" with
    | none => rfl
    | some name =>
      have hrow : volumeFromBody body id name ((storedVolume d id name).getD (freshVolume i id name)) =
          volumeFromBody body id name ((storedVolume d id name).getD (freshVolume j id name)) := by
        rcases h with himg | hstored
        · obtain ⟨image, himg⟩ := Option.isSome_iff_exists.mp himg
          cases storedVolume d id name with
          | some row => rfl
          | none =>
            unfold volumeFromBody freshVolume newDataVolume
            simp [himg]
        · obtain ⟨row, hrow⟩ := Option.isSome_iff_exists.mp (hstored id name hid hname)
          rw [hrow]
          rfl
      dsimp only
      rw [hrow]

theorem headResult_draw {db : Database} {head : ReplicationResourceHeadRow} (h : ImageKnown db.domain head)
    (draw draw' : String → String) : headResult draw db head = headResult draw' db head := by
  unfold headResult applyHeadToDomain
  by_cases hv : head.lastEventType ∈ volumeUpserts
  · have hhandler : handlerFor head.lastEventType = applyVolumeUpsert := by
      unfold volumeUpserts at hv
      simp only [List.mem_cons, List.not_mem_nil, or_false] at hv
      rcases hv with hv | hv | hv | hv <;> rw [hv] <;> rfl
    rw [hhandler]
    exact exec_applyVolumeUpsert_draw (h hv) _ _ _
  · unfold handlerFor
    cases hf : domainHandlers.find? (fun h => h.1 = head.lastEventType) with
    | none => rfl
    | some handler =>
      have hname : handler.1 = head.lastEventType := by simpa using List.find?_some hf
      have hsame := domainHandlers_ignore_draw handler (List.mem_of_find?_eq_some hf) (hname ▸ hv)
      exact congrArg (Tx.exec · db.domain) (hsame _ _ _ _)

/-! ### The follower of one origin -/

/-- The events of one origin in the order of its outbox: their identifiers grow and their operations are
distinct. -/
structure OriginLog where
  events : List WellFormedEvent
  increasing : events.Pairwise fun a b => a.event.eventId < b.event.eventId
  distinct : events.Pairwise fun a b => a.opId ≠ b.opId

structure Follower where
  db : Database
  rest : List WellFormedEvent

inductive FollowerAction where
  | apply
  | pass (draw : String → String)

namespace Follower

def step (s : Follower) : FollowerAction → Follower
  | .apply => match s.rest with
    | [] => s
    | e :: rest => ⟨((applyReplicationEvent .none e.event).exec s.db).2, rest⟩
  | .pass draw => ⟨passOnce s.db draw, s.rest⟩

/-- A follower that has received and materialised nothing, whatever its domain tables hold. -/
structure Fresh (db : Database) : Prop where
  heads : db.heads = .empty
  receivedOps : db.receivedOps = .empty
  materialized : db.materialized = .empty

/-- A kept event becomes the head of its key when it is applied and is not replaced before it is materialised;
each pass looks at all pending heads, finds only kept ones whose image names are known, and those it will retry
write nothing. -/
def KeepsEvents (kept : String → Bool) (s : Follower) : FollowerAction → Prop
  | .apply => match s.rest with
    | [] => True
    | e :: _ => (kept e.opId = true → shouldReplaceHead (s.db.heads.get e.key) e.rank = true) ∧
      ∀ head, s.db.heads.get e.key = some head → head.rank < e.rank → kept head.lastOpId = true →
        isMaterialized s.db head = true
  | .pass draw => CleanRetries draw s.db ∧ InWindow s.db ∧
      ∀ head ∈ s.db.heads.rows, isMaterialized s.db head = false →
        kept head.lastOpId = true ∧ ImageKnown s.db.domain head

def Settled (kept : String → Bool) (s : Follower) : Prop :=
  s.rest = [] ∧ ∃ draw, KeepsEvents kept s (.pass draw) ∧ ((processMaterializationOnce draw).exec s.db).1 = .ok false

/-! ### The materialiser as a worklist -/

def onTables (d : DomainTables) : Database := { Database.empty with domain := d }

def materialization : Work String WellFormedEvent DomainTables where
  name := WellFormedEvent.opId
  ready d e := !retries id (onTables d) e.headRow
  settle d e := ((headResult id (onTables d) e.headRow).1.isOk, (headResult id (onTables d) e.headRow).2)

/-- A follower after the events `applied`, in a configuration the worklist of the kept events reaches. -/
structure Follows (log : OriginLog) (kept : String → Bool) (start : Config String DomainTables) (s : Follower)
    (applied : List WellFormedEvent) (c : Config String DomainTables) : Prop where
  split : log.events = applied ++ s.rest
  ops : ∀ op, s.db.receivedOps.has op = true ↔ ∃ e ∈ applied, e.opId = op
  state : c.state = s.db.domain
  reaches : materialization.Reaches (log.events.filter fun e => kept e.opId) start c
  heads : ∀ head ∈ s.db.heads.rows, ∃ e ∈ applied, head = e.headRow
  marked : ∀ head ∈ s.db.heads.rows, isMaterialized s.db head = true ↔ head.lastOpId ∈ c.done
  rows : ∀ row ∈ s.db.materialized.rows, row.lastOpId ∈ c.done
  done : ∀ op ∈ c.done, ∃ e ∈ applied, e.opId = op
  pending : ∀ e ∈ applied, kept e.opId = true → e.opId ∉ c.done → s.db.heads.get e.key = some e.headRow

variable {log : OriginLog} {kept : String → Bool} {start c : Config String DomainTables} {s : Follower}
  {applied : List WellFormedEvent} {e : WellFormedEvent} {draw : String → String}

theorem eq_of_opId (log : OriginLog) {a b : WellFormedEvent} (ha : a ∈ log.events) (hb : b ∈ log.events)
    (hop : a.opId = b.opId) : a = b := by
  have hsymm : Std.Symm fun a b : WellFormedEvent => a.opId ≠ b.opId := ⟨fun _ _ h => h.symm⟩
  by_contra hne
  exact log.distinct.forall ha hb hne hop

theorem follows_start {db : Database} (hfresh : Fresh db) (log : OriginLog) (kept : String → Bool) :
    Follows log kept ⟨[], db.domain⟩ ⟨db, log.events⟩ [] ⟨[], db.domain⟩ where
  split := rfl
  ops op := by rw [hfresh.receivedOps]; simp [Table.has]
  state := rfl
  reaches := .refl _
  heads head hh := by rw [hfresh.heads] at hh; exact absurd hh List.not_mem_nil
  marked head hh := by rw [hfresh.heads] at hh; exact absurd hh List.not_mem_nil
  rows row hr := by rw [hfresh.materialized] at hr; exact absurd hr List.not_mem_nil
  done op ho := absurd ho List.not_mem_nil
  pending e he := absurd he List.not_mem_nil

theorem Follows.fresh (h : Follows log kept start s applied c) {rest : List WellFormedEvent}
    (hrest : s.rest = e :: rest) : s.db.receivedOps.has e.opId = false ∧ e.opId ∉ c.done := by
  have hsplit : log.events = applied ++ e :: rest := hrest ▸ h.split
  have hother : ∀ a ∈ applied, a.opId ≠ e.opId := by
    intro a ha
    have hd := log.distinct
    rw [hsplit] at hd
    exact (List.pairwise_append.mp hd).2.2 a ha e List.mem_cons_self
  constructor
  · by_contra hhas
    obtain ⟨a, ha, hop⟩ := (h.ops e.opId).mp (by simpa using hhas)
    exact hother a ha hop
  · intro hd
    obtain ⟨a, ha, hop⟩ := h.done _ hd
    exact hother a ha hop

theorem marked_apply (h : Follows log kept start s applied c) (hnd : e.opId ∉ c.done)
    {head : ReplicationResourceHeadRow} (hh : head ∈ ((applyReplicationEvent .none e.event).exec s.db).2.heads.rows) :
    isMaterialized ((applyReplicationEvent .none e.event).exec s.db).2 head = true ↔ head.lastOpId ∈ c.done := by
  rw [isMaterialized_apply]
  rcases mem_heads_apply hh with hh | ⟨-, rfl⟩
  · exact h.marked head hh
  · refine ⟨fun hm => ?_, fun hd => absurd hd hnd⟩
    obtain ⟨row, hrow, hop⟩ := isMaterialized_iff.mp hm
    rw [← hop]
    exact h.rows row (Table.mem_of_get hrow)

theorem pending_apply (h : Follows log kept start s applied c)
    (hnew : s.db.receivedOps.has e.opId = false)
    (hwins : kept e.opId = true → shouldReplaceHead (s.db.heads.get e.key) e.rank = true)
    (hkeep : ∀ head, s.db.heads.get e.key = some head → head.rank < e.rank → kept head.lastOpId = true →
      isMaterialized s.db head = true) {a : WellFormedEvent} (ha : a ∈ applied ++ [e]) (hk : kept a.opId = true)
    (hnd : a.opId ∉ c.done) :
    ((applyReplicationEvent .none e.event).exec s.db).2.heads.get a.key = some a.headRow := by
  refine (deliver_get s.db (s.db, e) a.key hnew).trans ?_
  rcases List.mem_append.mp ha with ha | ha
  · have hold := h.pending a ha hk hnd
    rw [hold]
    refine if_neg fun hrep => hnd ?_
    -- The event would replace a kept head that is pending.
    have hlt : a.headRow.rank < e.rank := (shouldReplaceHead_some _ _).mp hrep.2
    have hkey : s.db.heads.get e.key = some a.headRow := by rw [show e.key = a.key from hrep.1, hold]
    exact (h.marked _ (Table.mem_of_get hold)).mp (hkeep _ hkey hlt hk)
  · obtain rfl := List.mem_singleton.mp ha
    exact if_pos ⟨rfl, hwins hk⟩

theorem follows_apply (h : Follows log kept start s applied c) {rest : List WellFormedEvent}
    (hrest : s.rest = e :: rest) (hkeeps : KeepsEvents kept s .apply) :
    Follows log kept start (s.step .apply) (applied ++ [e]) c := by
  obtain ⟨hnew, hnd⟩ := h.fresh hrest
  have hsplit : log.events = applied ++ e :: rest := hrest ▸ h.split
  have hstep : s.step .apply = ⟨((applyReplicationEvent .none e.event).exec s.db).2, rest⟩ := by
    unfold step; rw [hrest]
  unfold KeepsEvents at hkeeps
  rw [hrest] at hkeeps
  obtain ⟨hwins, hkeep⟩ := hkeeps
  rw [hstep]
  refine ⟨by simpa using hsplit, fun op => ?_, h.state.trans (apply_domain e.event s.db).symm, h.reaches, ?_,
    fun head hh => marked_apply h hnd hh, ?_, ?_, fun a ha hk hna => pending_apply h hnew hwins hkeep ha hk hna⟩
  · refine (deliver_receivedOps s.db (s.db, e) op).trans ?_
    rw [h.ops]
    simp only [List.mem_append, List.mem_singleton, or_and_right, exists_or, exists_eq_left]
    exact or_congr_right eq_comm
  · intro head hh
    rcases mem_heads_apply hh with hh | ⟨-, rfl⟩
    · obtain ⟨a, ha, heq⟩ := h.heads head hh
      exact ⟨a, List.mem_append_left _ ha, heq⟩
    · exact ⟨e, List.mem_append_right _ (List.mem_singleton_self e), rfl⟩
  · intro row hr
    dsimp only at hr
    rw [apply_materialized] at hr
    exact h.rows row hr
  · intro op ho
    obtain ⟨a, ha, hop⟩ := h.done op ho
    exact ⟨a, List.mem_append_left _ ha, hop⟩

theorem pendingHeads_eq (h : Follows log kept start s applied c) (hkeeps : KeepsEvents kept s (.pass draw)) :
    pendingHeads s.db = ((applied.filter fun e => kept e.opId).filter fun e => e.opId ∉ c.done).map
      WellFormedEvent.headRow := by
  obtain ⟨-, hwindow, hkept⟩ := hkeeps
  have hinc : applied.Pairwise fun a b => a.event.eventId < b.event.eventId :=
    (List.pairwise_append.mp (h.split ▸ log.increasing)).1
  have hitems : (((applied.filter fun e => kept e.opId).filter fun e => e.opId ∉ c.done).map
      WellFormedEvent.headRow).Pairwise fun a b => a.lastEventId < b.lastEventId :=
    List.pairwise_map.mpr ((hinc.filter _).filter _)
  have hmem : ∀ head, head ∈ pendingHeads s.db ↔
      head ∈ ((applied.filter fun e => kept e.opId).filter fun e => e.opId ∉ c.done).map WellFormedEvent.headRow := by
    intro head
    simp only [List.mem_map, List.mem_filter, decide_eq_true_eq]
    constructor
    · intro hp
      obtain ⟨hh, hm⟩ := mem_pendingHeads hp
      obtain ⟨e, he, rfl⟩ := h.heads head hh
      refine ⟨e, ⟨⟨he, (hkept _ hh hm).1⟩, fun hd => ?_⟩, rfl⟩
      exact absurd ((h.marked _ hh).mpr hd) (by simp [hm])
    · rintro ⟨e, ⟨⟨he, hk⟩, hnd⟩, rfl⟩
      have hh : e.headRow ∈ s.db.heads.rows := Table.mem_of_get (h.pending e he hk hnd)
      have hm : isMaterialized s.db e.headRow = false := by
        by_contra hm
        exact hnd ((h.marked _ hh).mp (by simpa using hm))
      exact List.mem_filter.mpr ⟨hwindow _ hh hm, by rw [hm]; rfl⟩
  have hsymm : Std.Symm fun a b : ReplicationResourceHeadRow => a.lastEventId ≠ b.lastEventId :=
    ⟨fun _ _ hne => hne.symm⟩
  refine List.Perm.eq_of_pairwise (fun a b ha hb hab hba => ?_) (pairwise_pendingHeads s.db)
    (hitems.imp fun hlt => hlt.le) ?_
  · by_contra hne
    exact (hitems.imp fun hlt => hlt.ne).forall ((hmem a).mp ha) hb hne (le_antisymm hab hba)
  · refine (List.perm_ext_iff_of_nodup (nodup_pendingHeads s.db) ?_).mpr hmem
    exact hitems.imp fun hlt heq => absurd (congrArg _ heq) hlt.ne

theorem headResult_pending (hkeeps : KeepsEvents kept s (.pass draw)) {head : ReplicationResourceHeadRow}
    (hh : head ∈ pendingHeads s.db) : headResult draw s.db head = headResult id (onTables s.db.domain) head := by
  obtain ⟨hrow, hm⟩ := mem_pendingHeads hh
  exact headResult_draw (hkeeps.2.2 head hrow hm).2 draw id

theorem find_pending_eq (h : Follows log kept start s applied c) (hkeeps : KeepsEvents kept s (.pass draw)) :
    ((pendingHeads s.db).find? fun head => !retries draw s.db head) =
      (materialization.next (applied.filter fun e => kept e.opId) c).map WellFormedEvent.headRow := by
  have hcongr : ((pendingHeads s.db).find? fun head => !retries draw s.db head) =
      (pendingHeads s.db).find? fun head => !retries id (onTables s.db.domain) head := by
    rw [← List.head?_filter, ← List.head?_filter]
    refine congrArg List.head? (List.filter_congr fun head hh => ?_)
    unfold retries
    rw [headResult_pending hkeeps hh]
  rw [hcongr, pendingHeads_eq h hkeeps, List.find?_map, List.find?_filter, ← h.state]
  simp only [Bool.decide_and, Bool.decide_eq_true]
  rfl

theorem follows_failed (h : Follows log kept start s applied c) (d : DomainTables)
    (hreaches : materialization.Reaches (log.events.filter fun e => kept e.opId) start ⟨c.done, d⟩) :
    Follows log kept start ⟨{ s.db with domain := d }, s.rest⟩ applied ⟨c.done, d⟩ :=
  ⟨h.split, h.ops, rfl, hreaches, h.heads, h.marked, h.rows, h.done, h.pending⟩

theorem follows_done (h : Follows log kept start s applied c) (he : e ∈ applied) (hk : kept e.opId = true)
    (hnd : e.opId ∉ c.done) (d : DomainTables)
    (hreaches : materialization.Reaches (log.events.filter fun e => kept e.opId) start ⟨e.opId :: c.done, d⟩) :
    Follows log kept start
      ⟨{ s.db with domain := d, materialized := s.db.materialized.put ⟨e.key, e.opId, e.headRow.lastEventType⟩ },
        s.rest⟩ applied ⟨e.opId :: c.done, d⟩ := by
  refine ⟨h.split, h.ops, rfl, hreaches, h.heads, ?_, ?_, ?_, ?_⟩
  · intro head hh
    have hold := h.marked head hh
    rw [isMaterialized_iff] at hold ⊢
    dsimp only
    rw [Table.get_put]
    by_cases hkey : e.key = head.resourceKey
    · -- The head of the key is this event.
      have hget := h.pending e he hk hnd
      rw [hkey, Table.get_of_mem hh] at hget
      obtain rfl := Option.some.inj hget
      rw [if_pos hkey]
      exact ⟨fun _ => List.mem_cons_self, fun _ => ⟨_, rfl, rfl⟩⟩
    · have hne : head.lastOpId ≠ e.opId := by
        obtain ⟨a, ha, rfl⟩ := h.heads head hh
        intro hop
        have hin : ∀ {x}, x ∈ applied → x ∈ log.events := fun hx => h.split ▸ List.mem_append_left _ hx
        exact hkey (congrArg WellFormedEvent.key (eq_of_opId log (hin he) (hin ha) hop.symm))
      rw [if_neg hkey, hold, List.mem_cons]
      exact (or_iff_right hne).symm
  · intro row hr
    rcases Table.mem_put.mp hr with rfl | ⟨hr, -⟩
    · exact List.mem_cons_self
    · exact List.mem_cons_of_mem _ (h.rows row hr)
  · intro op ho
    rcases List.mem_cons.mp ho with rfl | ho
    · exact ⟨e, he, rfl⟩
    · exact h.done op ho
  · intro a ha hka hnda
    exact h.pending a ha hka fun hd => hnda (List.mem_cons_of_mem _ hd)

theorem follows_pass (h : Follows log kept start s applied c) (hkeeps : KeepsEvents kept s (.pass draw)) :
    Follows log kept start (s.step (.pass draw)) applied
      (materialization.advance (applied.filter fun e => kept e.opId) c) := by
  have hfind := find_pending_eq h hkeeps
  have hpass := exec_processMaterializationOnce hkeeps.1
  rw [hfind] at hpass
  have hreaches : materialization.Reaches (log.events.filter fun e => kept e.opId) start
      (materialization.advance (applied.filter fun e => kept e.opId) c) := by
    have := h.reaches
    rw [h.split, List.filter_append] at this ⊢
    exact this.advance_part
  cases hnext : materialization.next (applied.filter fun e => kept e.opId) c with
  | none =>
    rw [hnext] at hpass
    have hdb : s.step (.pass draw) = s := congrArg (fun db => (⟨db, s.rest⟩ : Follower)) (congrArg Prod.snd hpass)
    rw [Work.advance_of_idle hnext, hdb]
    exact h
  | some e =>
    rw [hnext] at hpass hfind
    have hitem := List.mem_filter.mp (List.mem_of_find?_eq_some hnext)
    have hnd : e.opId ∉ c.done := by
      have := List.find?_some hnext
      rw [Bool.and_eq_true, decide_eq_true_eq] at this
      exact this.1
    have hres := headResult_pending hkeeps (List.mem_of_find?_eq_some hfind)
    rw [Work.advance_of_next hnext] at hreaches ⊢
    have hdb : s.step (.pass draw) = ⟨(settleHead draw s.db e.headRow).2, s.rest⟩ :=
      congrArg (fun db => (⟨db, s.rest⟩ : Follower)) (congrArg Prod.snd hpass)
    have hsettled : materialization.settled c e =
        ⟨if (headResult draw s.db e.headRow).1.isOk then e.opId :: c.done else c.done,
          (headResult draw s.db e.headRow).2⟩ := by
      rw [hres, ← h.state]
      rfl
    rw [hsettled] at hreaches ⊢
    rw [hdb]
    unfold settleHead
    rcases hr : headResult draw s.db e.headRow with ⟨r, d⟩
    rw [hr] at hreaches
    cases r with
    | error err => exact follows_failed h d hreaches
    | ok u => exact follows_done h hitem.1 hitem.2 hnd d hreaches

/-! ### Two schedules -/

def OnCourse (log : OriginLog) (kept : String → Bool) (start : Config String DomainTables) (s : Follower) : Prop :=
  ∃ applied c, Follows log kept start s applied c

theorem onCourse_step (s : Follower) (a : FollowerAction) (h : OnCourse log kept start s)
    (hkeeps : KeepsEvents kept s a) :
    OnCourse log kept start (s.step a) := by
  obtain ⟨applied, c, h⟩ := h
  cases a with
  | pass draw => exact ⟨applied, _, follows_pass h hkeeps⟩
  | apply =>
    cases hrest : s.rest with
    | nil =>
      have hstay : s.step .apply = s := by unfold step; rw [hrest]
      exact ⟨applied, c, hstay.symm ▸ h⟩
    | cons e rest => exact ⟨applied ++ [e], c, follows_apply h hrest hkeeps⟩

theorem idle_of_settled (h : Follows log kept start s applied c) (hs : Settled kept s) :
    materialization.next (log.events.filter fun e => kept e.opId) c = none := by
  obtain ⟨hrest, draw, hkeeps, hidle⟩ := hs
  have hall : log.events = applied := by rw [h.split, hrest, List.append_nil]
  have hpass := exec_processMaterializationOnce hkeeps.1
  rw [find_pending_eq h hkeeps] at hpass
  rw [hall]
  cases hnext : materialization.next (applied.filter fun e => kept e.opId) c with
  | none => rfl
  | some e =>
    rw [hnext] at hpass
    have hidle : (settleHead draw s.db e.headRow).1 = .ok false := (congrArg Prod.fst hpass).symm.trans hidle
    unfold settleHead at hidle
    split at hidle <;> exact absurd hidle (by simp)

/-- **Confluence of materialisation.** Two schedules of a log that keep the same events leave the same domain tables,
once the log is applied and the materialiser is idle. -/
theorem schedules_agree (log : OriginLog) (kept : String → Bool) (db db' : Database) (hfresh : Fresh db)
    (hfresh' : Fresh db') (hdomain : db.domain = db'.domain) (acts acts' : List FollowerAction)
    (h : Each step (KeepsEvents kept) ⟨db, log.events⟩ acts)
    (h' : Each step (KeepsEvents kept) ⟨db', log.events⟩ acts')
    (hs : Settled kept (run step ⟨db, log.events⟩ acts)) (hs' : Settled kept (run step ⟨db', log.events⟩ acts')) :
    (run step ⟨db, log.events⟩ acts).db.domain = (run step ⟨db', log.events⟩ acts').db.domain := by
  have course : ∀ {db : Database} {acts : List FollowerAction}, Fresh db →
      Each step (KeepsEvents kept) ⟨db, log.events⟩ acts →
      OnCourse log kept ⟨[], db.domain⟩ (run step ⟨db, log.events⟩ acts) := fun hfresh h =>
    (along_of_each ⟨[], _, follows_start hfresh log kept⟩ onCourse_step h).last
  obtain ⟨_, c, hc⟩ := course hfresh h
  obtain ⟨_, c', hc'⟩ := course hfresh' h'
  have hreaches := hc'.reaches
  rw [← hdomain] at hreaches
  have heq : c = c' := hc.reaches.idle_unique hreaches (idle_of_settled hc hs) (idle_of_settled hc' hs')
  rw [← hc.state, ← hc'.state, heq]

theorem keepsEvents_pass (hfew : s.db.heads.rows.length ≤ materializerBatchSize)
    (hready : (s.db.heads.rows.all fun head => !retries id s.db head) = true)
    (hkinds : (s.db.heads.rows.all fun head => head.lastEventType ∉ volumeUpserts) = true) :
    KeepsEvents (fun _ => true) s (.pass id) := by
  refine ⟨fun head hh hr => ?_, inWindow_of_length_le hfew, fun head hh _ => ⟨rfl, fun hv => ?_⟩⟩
  · have := List.all_eq_true.mp hready head (mem_pendingHeads hh).1
    rw [hr] at this
    exact absurd this Bool.false_ne_true
  · exact absurd hv (by simpa using List.all_eq_true.mp hkinds head hh)

def logged (opId : String) (ts : Int) (fits : fitsI64 ts = true) (eventType resourceKey : String) (body : Value)
    (id : Int) : WellFormedEvent :=
  LogEntry.wellFormed ⟨opId, ts, "ctrl-a", "DC1", eventType, resourceKey, body, fits⟩ id

def networkAndGroup : OriginLog where
  events := [logged "op-1" 1000 (.refl true) "network.create" "network/node-a/lan"
      (.object [("nodeId", .string "node-a"), ("name", .string "lan")]) 1,
    logged "op-2" 2000 (.refl true) "security_group.create" "security-group/web" (.object [("name", .string "web")]) 2]
  increasing := by decide
  distinct := by decide

/-- A follower that applies both events before it materialises and one that materialises after each. -/
theorem network_and_group_schedules_agree :
    (run step ⟨.empty, networkAndGroup.events⟩ [.apply, .apply, .pass id, .pass id]).db.domain =
      (run step ⟨.empty, networkAndGroup.events⟩ [.apply, .pass id, .apply, .pass id]).db.domain := by
  have hkey : ∀ e : WellFormedEvent, ∀ db : Database, db.heads.get e.key = none →
      (true = true → shouldReplaceHead (db.heads.get e.key) e.rank = true) ∧
      ∀ head, db.heads.get e.key = some head → head.rank < e.rank → true = true → isMaterialized db head = true := by
    intro e db hnone
    rw [hnone]
    exact ⟨fun _ => rfl, fun head hh => absurd hh (by simp)⟩
  refine schedules_agree networkAndGroup (fun _ => true) .empty .empty ⟨rfl, rfl, rfl⟩ ⟨rfl, rfl, rfl⟩ rfl _ _
    ⟨hkey _ _ rfl, hkey _ _ rfl, ?_, ?_, trivial⟩ ⟨hkey _ _ rfl, ?_, hkey _ _ rfl, ?_, trivial⟩
    ⟨rfl, id, ?_, by decide⟩ ⟨rfl, id, ?_, by decide⟩
  all_goals exact keepsEvents_pass (by decide) (by decide) (by decide)

def createThenStop : OriginLog where
  events := [logged "op-1" 1000 (.refl true) "vm.create" "vm/web"
      (.object [("vmId", .string "web"), ("nodeId", .string "node-a")]) 1,
    logged "op-2" 2000 (.refl true) "vm.desired_state.set" "vm/web"
      (.object [("vmId", .string "web"), ("autoStart", .bool false)]) 2]
  increasing := by decide
  distinct := by decide

/-- A follower that applies the whole log first never creates the VM. -/
theorem batched_follower_lacks_vm :
    (run step ⟨.empty, createThenStop.events⟩ [.apply, .pass id, .apply, .pass id]).rest = [] ∧
    (run step ⟨.empty, createThenStop.events⟩ [.apply, .apply, .pass id]).rest = [] ∧
    ((processMaterializationOnce id).exec
      (run step ⟨.empty, createThenStop.events⟩ [.apply, .pass id, .apply, .pass id]).db).1 = .ok false ∧
    ((processMaterializationOnce id).exec
      (run step ⟨.empty, createThenStop.events⟩ [.apply, .apply, .pass id]).db).1 = .ok false ∧
    (run step ⟨.empty, createThenStop.events⟩ [.apply, .pass id, .apply, .pass id]).db.domain.vms.has "web" = true ∧
    (run step ⟨.empty, createThenStop.events⟩ [.apply, .apply, .pass id]).db.domain.vms.has "web" = false := by
  refine ⟨rfl, rfl, ?_, ?_, ?_, ?_⟩
  · decide
  · decide
  · decide
  · decide

end Follower

end Kcore
