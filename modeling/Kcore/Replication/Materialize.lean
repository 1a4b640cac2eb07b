import Mathlib.Data.List.Sort
import Kcore.Lib.Run
import Kcore.Replication.Dispatch
import Kcore.Replication.Heads

/-!
# The materialiser

`process_materialization_once` looks at the first 256 heads in the order of their event identifiers,
materialised or not, and applies the first that is not materialised to the domain tables. A head that fails with
the retry text is passed over; any other failure ends the pass. What a pass leaves out is therefore either
behind the window or behind a head that keeps failing.
-/

namespace Kcore

open Keyed Machine

/-! ### One pass -/

def materializerBatchSize : Nat := 256

def applyHeadToDomain (freshId : String) (head : ReplicationResourceHeadRow) : Query Unit :=
  handlerFor head.lastEventType ⟨head.resourceKey, head.lastBodyJson, freshId⟩

def listReplicationResourceHeads (db : Database) (limit : Nat) : List ReplicationResourceHeadRow :=
  (db.heads.rows.insertionSort fun a b => a.lastEventId ≤ b.lastEventId).take limit

def isMaterialized (db : Database) (head : ReplicationResourceHeadRow) : Bool :=
  (db.materialized.get head.resourceKey).any fun row => row.lastOpId = head.lastOpId

variable {db : Database} {head : ReplicationResourceHeadRow}

theorem isMaterialized_iff : isMaterialized db head = true ↔
    ∃ row, db.materialized.get head.resourceKey = some row ∧ row.lastOpId = head.lastOpId := by
  unfold isMaterialized
  rw [Option.any_eq_true]
  simp only [decide_eq_true_eq]

def upsertMaterializedReplicationHead (head : ReplicationResourceHeadRow) : Tx Database Unit :=
  Tx.write fun db =>
    { db with materialized := db.materialized.put ⟨head.resourceKey, head.lastOpId, head.lastEventType⟩ }

def countReplicationMaterializationBacklog (db : Database) : Nat :=
  db.heads.rows.countP fun head => !isMaterialized db head

def onDomain {α : Type} (x : Query α) : Tx Database α := x.zoom Database.domain fun d db => { db with domain := d }

/-- The loop of `process_materialization_once`. `draw` gives the identifier `Uuid::new_v4` draws for each key.
-/
def materializeFirst (draw : String → String) : List ReplicationResourceHeadRow → Tx Database Bool
  | [] => pure false
  | head :: rest => do
    if ← Tx.read fun db => isMaterialized db head then materializeFirst draw rest
    else
      match ← (onDomain (applyHeadToDomain (draw head.resourceKey) head)).attempt with
      | .error err => if textContains err notMaterializedYet then materializeFirst draw rest else throw err
      | .ok () => do
        upsertMaterializedReplicationHead head
        return true

def processMaterializationOnce (draw : String → String) : Tx Database Bool := do
  let heads ← Tx.read fun db => listReplicationResourceHeads db materializerBatchSize
  materializeFirst draw heads

/-! ### What one pass does -/

section Pass

variable (draw : String → String) (db : Database)

def headResult (head : ReplicationResourceHeadRow) : Except String Unit × DomainTables :=
  (applyHeadToDomain (draw head.resourceKey) head).exec db.domain

def HeadFails (head : ReplicationResourceHeadRow) : Prop := ∃ err, (headResult draw db head).1 = .error err

def retries (head : ReplicationResourceHeadRow) : Bool :=
  match (headResult draw db head).1 with
  | .error err => textContains err notMaterializedYet
  | .ok _ => false

def pendingHeads : List ReplicationResourceHeadRow :=
  (listReplicationResourceHeads db materializerBatchSize).filter fun head => !isMaterialized db head

def CleanRetries : Prop :=
  ∀ head ∈ pendingHeads db, retries draw db head = true → (headResult draw db head).2 = db.domain

def settleHead (head : ReplicationResourceHeadRow) : Except String Bool × Database :=
  match headResult draw db head with
  | (.error err, d) => (.error err, { db with domain := d })
  | (.ok _, d) => (.ok true, { db with
      domain := d, materialized := db.materialized.put ⟨head.resourceKey, head.lastOpId, head.lastEventType⟩ })

variable {draw db} {head : ReplicationResourceHeadRow}

theorem headFails_of_retries (h : retries draw db head = true) :
    HeadFails draw db head := by
  unfold retries at h
  unfold HeadFails
  cases hr : (headResult draw db head).1 with
  | error err => exact ⟨err, rfl⟩
  | ok u => rw [hr] at h; exact absurd h Bool.false_ne_true

theorem exec_materializeFirst (heads : List ReplicationResourceHeadRow)
    (hclean : ∀ head ∈ heads, isMaterialized db head = false → retries draw db head = true →
      (headResult draw db head).2 = db.domain) :
    (materializeFirst draw heads).exec db =
      match (heads.filter fun head => !isMaterialized db head).find? fun head => !retries draw db head with
      | none => (.ok false, db)
      | some head => settleHead draw db head := by
  induction heads with
  | nil => rfl
  | cons head rest ih =>
    have ih := ih fun h hh => hclean h (List.mem_cons_of_mem _ hh)
    rw [materializeFirst, Tx.exec_read_bind]
    cases hm : isMaterialized db head with
    | true =>
      rw [if_pos rfl, ih, List.filter_cons_of_neg (by simp [hm])]
    | false =>
      have hres : (onDomain (applyHeadToDomain (draw head.resourceKey) head)).exec db =
          ((headResult draw db head).1, { db with domain := (headResult draw db head).2 }) := rfl
      have hatt : ((onDomain (applyHeadToDomain (draw head.resourceKey) head)).attempt.exec db).1 =
          .ok (headResult draw db head).1 := by rw [Tx.exec_attempt, hres]
      rw [if_neg Bool.false_ne_true, List.filter_cons_of_pos (by simp [hm]), Tx.exec_bind_of_ok hatt,
        Tx.exec_attempt, hres]
      have hstay := hclean head List.mem_cons_self hm
      unfold retries at hstay
      cases hr : (headResult draw db head).1 with
      | ok u =>
        have hno : (!retries draw db head) = true := by unfold retries; rw [hr]; rfl
        rw [List.find?_cons_of_pos (p := fun head => !retries draw db head) hno]
        show _ = settleHead draw db head
        unfold settleHead
        rw [show headResult draw db head = (.ok u, (headResult draw db head).2) from Prod.ext hr rfl]
        rfl
      | error err =>
        rw [hr] at hstay
        dsimp only at hstay ⊢
        cases ht : textContains err notMaterializedYet with
        | true =>
          have hyes : ¬ (!retries draw db head) = true := by unfold retries; rw [hr]; simp [ht]
          rw [if_pos rfl, List.find?_cons_of_neg (p := fun head => !retries draw db head) hyes, hstay ht]
          exact ih
        | false =>
          have hno : (!retries draw db head) = true := by unfold retries; rw [hr]; simp [ht]
          rw [if_neg Bool.false_ne_true, List.find?_cons_of_pos (p := fun head => !retries draw db head) hno]
          show _ = settleHead draw db head
          unfold settleHead
          rw [show headResult draw db head = (.error err, (headResult draw db head).2) from Prod.ext hr rfl]
          rfl

theorem exec_processMaterializationOnce (hclean : CleanRetries draw db) :
    (processMaterializationOnce draw).exec db =
      match (pendingHeads db).find? fun head => !retries draw db head with
      | none => (.ok false, db)
      | some head => settleHead draw db head := by
  rw [processMaterializationOnce, Tx.exec_read_bind]
  refine exec_materializeFirst _ fun head hh hm => hclean head ?_
  exact List.mem_filter.mpr ⟨hh, by simp [hm]⟩

theorem mem_listReplicationResourceHeads {limit : Nat} (h : head ∈ listReplicationResourceHeads db limit) :
    head ∈ db.heads.rows :=
  (List.perm_insertionSort _ _).mem_iff.mp (List.mem_of_mem_take h)

theorem mem_pendingHeads (h : head ∈ pendingHeads db) :
    head ∈ db.heads.rows ∧ isMaterialized db head = false := by
  obtain ⟨hl, hm⟩ := List.mem_filter.mp h
  exact ⟨mem_listReplicationResourceHeads hl, by simpa using hm⟩

theorem pairwise_pendingHeads (db : Database) :
    (pendingHeads db).Pairwise fun a b => a.lastEventId ≤ b.lastEventId := by
  let le (a b : ReplicationResourceHeadRow) : Prop := a.lastEventId ≤ b.lastEventId
  have htotal : Std.Total le := ⟨fun a b => Int.le_total a.lastEventId b.lastEventId⟩
  have htrans : IsTrans ReplicationResourceHeadRow le := ⟨fun _ _ _ hab hbc => Int.le_trans hab hbc⟩
  have hsort := List.pairwise_insertionSort le db.heads.rows
  exact (hsort.sublist (List.take_sublist _ _)).filter _

theorem nodup_pendingHeads (db : Database) : (pendingHeads db).Nodup := by
  have hrows : db.heads.rows.Nodup := db.heads.nodup.of_map _
  have hsort := (List.perm_insertionSort (fun a b => a.lastEventId ≤ b.lastEventId) db.heads.rows).nodup_iff.mpr hrows
  exact (hsort.sublist (List.take_sublist _ _)).filter _

theorem pass_cases (hclean : CleanRetries draw db) :
    ((processMaterializationOnce draw).exec db = (.ok false, db) ∧
      ∀ head ∈ pendingHeads db, retries draw db head = true) ∨
    ∃ before head after, pendingHeads db = before ++ head :: after ∧ retries draw db head = false ∧
      (∀ h ∈ before, retries draw db h = true) ∧
      (processMaterializationOnce draw).exec db = settleHead draw db head := by
  rw [exec_processMaterializationOnce hclean]
  cases hf : (pendingHeads db).find? fun head => !retries draw db head with
  | none =>
    refine .inl ⟨rfl, fun head hh => ?_⟩
    simpa using List.find?_eq_none.mp hf head hh
  | some head =>
    obtain ⟨hp, before, after, heq, hbefore⟩ := List.find?_eq_some_iff_append.mp hf
    refine .inr ⟨before, head, after, heq, by simpa using hp, fun h hh => ?_, rfl⟩
    simpa using hbefore h hh

end Pass

/-! ### Applied events -/

theorem isMaterialized_apply (event : ReplicationEvent) (db : Database) (head : ReplicationResourceHeadRow) :
    isMaterialized ((applyReplicationEvent .none event).exec db).2 head = isMaterialized db head := by
  unfold isMaterialized
  rw [apply_materialized]

theorem mem_heads_apply {e : WellFormedEvent}
    (h : head ∈ ((applyReplicationEvent .none e.event).exec db).2.heads.rows) :
    head ∈ db.heads.rows ∨ db.receivedOps.has e.opId = false ∧ head = e.headRow := by
  have hheads : ((applyReplicationEvent .none e.event).exec db).2.heads = _ := deliver_heads db (db, e)
  rw [hheads] at h
  split at h
  · exact .inl h
  · rename_i hnew
    split at h
    · rcases Table.mem_put.mp h with rfl | ⟨h, -⟩
      · exact .inr ⟨by simpa using hnew, rfl⟩
      · exact .inl h
    · exact .inl h

theorem exec_applyVmStateFromBody_of_missing {vmId state : String} {body : Value} {d : DomainTables}
    (hstate : body.str "runtimeState" = some state) (hne : state ≠ "") (hno : d.vms.any (·.id = vmId) = false) :
    (applyVmStateFromBody vmId body).exec d = (.error ("vm " ++ vmId ++ " " ++ notMaterializedYet), d) := by
  have hset : ((setVmRuntimeById vmId state).context ("set runtime " ++ vmId)).exec d = (.ok false, d) := by
    have hup : (setVmRuntimeById vmId state).exec d = (.ok false, d) := by
      unfold setVmRuntimeById updateVms
      rw [Tx.exec_read_bind, Tx.exec_write_bind, Table.update_of_any_eq_false hno, hno]
      rfl
    rw [Tx.context, Tx.exec_mapErr, hup]
  unfold applyVmStateFromBody
  rw [hstate]
  dsimp only
  rw [if_neg hne, Tx.exec_bind_of_ok (congrArg Prod.fst hset), hset]
  rfl

/-! ### Passes in turn -/

def passOnce (db : Database) (draw : String → String) : Database := ((processMaterializationOnce draw).exec db).2

def InWindow (db : Database) : Prop :=
  ∀ head ∈ db.heads.rows, isMaterialized db head = false →
    head ∈ listReplicationResourceHeads db materializerBatchSize

theorem inWindow_of_length_le (h : db.heads.rows.length ≤ materializerBatchSize) : InWindow db := by
  intro head hh _
  unfold listReplicationResourceHeads
  rw [List.take_of_length_le (by rw [List.length_insertionSort]; exact h)]
  exact (List.perm_insertionSort _ _).mem_iff.mpr hh

/-- A pass that makes no progress has left out only heads whose own application fails. -/
def LeavesOnlyFailing (db : Database) (draw : String → String) : Prop :=
  ((processMaterializationOnce draw).exec db).1 ≠ .ok true →
    ∀ head ∈ db.heads.rows, isMaterialized db head = false → HeadFails draw db head

/-- If the first pending head that is not passed over fails, all pending heads after it fail too. -/
def NotBlocked (db : Database) (draw : String → String) : Prop :=
  ∀ before head after, pendingHeads db = before ++ head :: after → (∀ h ∈ before, retries draw db h = true) →
    retries draw db head = false → HeadFails draw db head → ∀ later ∈ after, HeadFails draw db later

section Complete

variable {draw : String → String} {db : Database} {head : ReplicationResourceHeadRow}

theorem isMaterialized_settle {h : ReplicationResourceHeadRow} (hm : head ∈ db.heads.rows) (hh : h ∈ db.heads.rows)
    (hdone : isMaterialized db h = true) : isMaterialized (settleHead draw db head).2 h = true := by
  unfold settleHead
  split
  · exact hdone
  · unfold isMaterialized at hdone ⊢
    dsimp only
    rw [Table.get_put]
    split
    · rename_i hk
      -- The heads of one key are one head.
      have hget := Table.get_of_mem hh
      rw [← show head.resourceKey = h.resourceKey from hk, Table.get_of_mem hm] at hget
      simp [Option.some.inj hget]
    · exact hdone

theorem settleHead_heads (head : ReplicationResourceHeadRow) : (settleHead draw db head).2.heads = db.heads := by
  unfold settleHead
  split <;> rfl

theorem passOnce_heads (hclean : CleanRetries draw db) : (passOnce db draw).heads = db.heads := by
  unfold passOnce
  rcases pass_cases hclean with ⟨heq, -⟩ | ⟨_, head, _, -, -, -, heq⟩
  · rw [heq]
  · rw [heq, settleHead_heads]

theorem isMaterialized_passOnce (hclean : CleanRetries draw db) {h : ReplicationResourceHeadRow}
    (hh : h ∈ db.heads.rows) (hdone : isMaterialized db h = true) : isMaterialized (passOnce db draw) h = true := by
  unfold passOnce
  rcases pass_cases hclean with ⟨heq, -⟩ | ⟨_, head, _, hp, -, -, heq⟩
  · rw [heq]; exact hdone
  · have hmem : head ∈ pendingHeads db := hp ▸ List.mem_append_right _ List.mem_cons_self
    rw [heq]
    exact isMaterialized_settle (mem_pendingHeads hmem).1 hh hdone

theorem inWindow_passOnce (hw : InWindow db) (hclean : CleanRetries draw db) : InWindow (passOnce db draw) := by
  intro head hh hnot
  unfold listReplicationResourceHeads
  rw [passOnce_heads hclean] at hh ⊢
  refine hw head hh ?_
  by_contra hdone
  have := isMaterialized_passOnce hclean hh (by simpa using hdone)
  exact absurd this (by simp [hnot])

theorem backlog_passOnce (hclean : CleanRetries draw db)
    (hok : ((processMaterializationOnce draw).exec db).1 = .ok true) :
    countReplicationMaterializationBacklog (passOnce db draw) < countReplicationMaterializationBacklog db := by
  have hmono := @isMaterialized_passOnce draw db hclean
  have hheads := passOnce_heads hclean
  rcases pass_cases hclean with ⟨heq, -⟩ | ⟨_, head, _, hp, -, -, heq⟩
  · rw [heq] at hok
    exact absurd hok (by simp)
  · have hmem := mem_pendingHeads (hp ▸ List.mem_append_right _ List.mem_cons_self : head ∈ pendingHeads db)
    have hdone : isMaterialized (passOnce db draw) head = true := by
      unfold passOnce
      rw [heq] at hok ⊢
      unfold settleHead at hok ⊢
      split at hok
      · exact absurd hok (by simp)
      · unfold isMaterialized
        dsimp only
        rw [Table.get_put, if_pos rfl]
        simp
    unfold countReplicationMaterializationBacklog
    rw [hheads]
    refine countP_lt_countP (fun h hh hnot => ?_) hmem.1 (by rw [hmem.2]; rfl) (by rw [hdone]; rfl)
    by_contra hyes
    exact absurd (hmono hh (by simpa using hyes)) (by simpa using hnot)

theorem settleHead_of_fails (h : HeadFails draw db head) :
    (settleHead draw db head).1 ≠ .ok true := by
  obtain ⟨err, herr⟩ := h
  unfold settleHead
  split
  · simp
  · rename_i hr
    rw [hr] at herr
    exact absurd herr (by simp)

theorem headFails_of_settle (h : (settleHead draw db head).1 ≠ .ok true) :
    HeadFails draw db head := by
  unfold settleHead at h
  split at h
  · rename_i err d hr
    exact ⟨err, congrArg Prod.fst hr⟩
  · exact absurd rfl h

theorem leavesOnlyFailing_iff (hw : InWindow db) (hclean : CleanRetries draw db) :
    LeavesOnlyFailing db draw ↔ NotBlocked db draw := by
  constructor
  · intro h before head after hp hbefore hhead hfails later hl
    have hpass : (processMaterializationOnce draw).exec db = settleHead draw db head := by
      have hfind : ((pendingHeads db).find? fun head => !retries draw db head) = some head := by
        rw [List.find?_eq_some_iff_append]
        exact ⟨by simp [hhead], before, after, hp, fun h hh => by simp [hbefore h hh]⟩
      rw [exec_processMaterializationOnce hclean, hfind]
    have hmem := mem_pendingHeads (hp ▸ List.mem_append_right _ (List.mem_cons_of_mem _ hl) : later ∈ pendingHeads db)
    exact h (by rw [hpass]; exact settleHead_of_fails hfails) later hmem.1 hmem.2
  · intro h hidle head hh hnot
    have hpending : head ∈ pendingHeads db := List.mem_filter.mpr ⟨hw head hh hnot, by rw [hnot]; rfl⟩
    rcases pass_cases hclean with ⟨-, hall⟩ | ⟨before, first, after, hp, hfirst, hbefore, heq⟩
    · exact headFails_of_retries (hall head hpending)
    · have hfails : HeadFails draw db first := headFails_of_settle (heq ▸ hidle)
      rw [hp] at hpending
      rcases List.mem_append.mp hpending with hb | ha
      · exact headFails_of_retries (hbefore head hb)
      · rcases List.mem_cons.mp ha with rfl | ha
        · exact hfails
        · exact h before first after hp hbefore hfirst hfails head ha

theorem notBlocked_of_retries (h : ∀ head ∈ pendingHeads db, HeadFails draw db head → retries draw db head = true) :
    NotBlocked db draw := by
  intro before head after hp _ hhead hfails
  have hmem : head ∈ pendingHeads db := hp ▸ List.mem_append_right _ List.mem_cons_self
  rw [h head hmem hfails] at hhead
  exact absurd hhead (by simp)

theorem passOnce_of_false (hclean : CleanRetries draw db)
    (hfalse : ((processMaterializationOnce draw).exec db).1 = .ok false) : passOnce db draw = db := by
  rcases pass_cases hclean with ⟨hsame, -⟩ | ⟨_, head, _, -, -, -, hsettle⟩
  · exact congrArg Prod.snd hsame
  · rw [hsettle] at hfalse
    unfold settleHead at hfalse
    split at hfalse <;> exact absurd hfalse (by simp)

theorem exists_no_progress {draws : List (String → String)}
    (hclean : Each passOnce (fun db draw => CleanRetries draw db) db draws)
    (hlt : countReplicationMaterializationBacklog db < draws.length) :
    ∃ done draw rest, draws = done ++ draw :: rest ∧
      ((processMaterializationOnce draw).exec (run passOnce db done)).1 ≠ .ok true := by
  induction draws generalizing db with
  | nil => exact absurd hlt (Nat.not_lt_zero _)
  | cons first draws ih =>
    by_cases hok : ((processMaterializationOnce first).exec db).1 = .ok true
    · have hless := backlog_passOnce hclean.1 hok
      obtain ⟨done, draw, rest, heq, hno⟩ := ih hclean.2 (by rw [List.length_cons] at hlt; omega)
      exact ⟨first :: done, draw, rest, by rw [heq]; rfl, hno⟩
    · exact ⟨[], first, draws, rfl, hok⟩

theorem each_inWindow {draws : List (String → String)} (hw : InWindow db)
    (hclean : Each passOnce (fun db draw => CleanRetries draw db) db draws) :
    Each passOnce (fun db draw => InWindow db ∧ CleanRetries draw db) db draws :=
  (along_of_each hw (fun _ _ hw hclean => inWindow_passOnce hw hclean) hclean).each.and hclean

end Complete

/-- **Completeness of the materialiser.** Wherever a pass makes no progress only heads whose own application fails are
left, if and only if no pass is blocked by a head that fails before one that does not. Among more passes than heads were
waiting there is one without progress. -/
theorem only_failing_heads_stay_behind (db : Database) (hw : InWindow db) (draws : List (String → String))
    (hclean : Each passOnce (fun db draw => CleanRetries draw db) db draws) :
    (Each passOnce LeavesOnlyFailing db draws ↔ Each passOnce NotBlocked db draws) ∧
    Each passOnce (fun db draw => ((processMaterializationOnce draw).exec db).1 = .ok false → passOnce db draw = db)
      db draws ∧
    (countReplicationMaterializationBacklog db < draws.length → ∃ done draw rest, draws = done ++ draw :: rest ∧
      ((processMaterializationOnce draw).exec (run passOnce db done)).1 ≠ .ok true) := by
  refine ⟨each_congr (each_inWindow hw hclean) fun _ _ h => leavesOnlyFailing_iff h.1 h.2, ?_,
    exists_no_progress hclean⟩
  exact hclean.mono fun _ _ h => passOnce_of_false h

def keyHead (name : String) (eventId : Int) (body : Value) : ReplicationResourceHeadRow :=
  (LogEntry.wellFormed ⟨"op-" ++ name, 1000, "ctrl-a", "DC1", "ssh_key.create", "ssh-key/" ++ name, body, .refl true⟩
    eventId).headRow

def laptopHead : ReplicationResourceHeadRow :=
  keyHead "laptop" 2 (.object [("name", .string "laptop"), ("publicKey", .string "ssh-ed25519 AAAA")])

def stateHead (eventId : Int) : ReplicationResourceHeadRow :=
  (LogEntry.wellFormed ⟨"op-state", 1000, "ctrl-a", "DC1", "vm.state", "vm-state/web",
    .object [("vmId", .string "web"), ("runtimeState", .string "running")], .refl true⟩ eventId).headRow

theorem headResult_stateHead (draw : String → String) (db : Database) (eventId : Int)
    (hno : db.domain.vms.any (·.id = "web") = false) : (headResult draw db (stateHead eventId)).2 = db.domain := by
  have hne : "running" ≠ "" := by decide
  have hexec : (applyVmStateFromBody "web"
      (.object [("vmId", .string "web"), ("runtimeState", .string "running")])).exec db.domain =
      (.error ("vm " ++ "web" ++ " " ++ notMaterializedYet), db.domain) :=
    exec_applyVmStateFromBody_of_missing rfl hne hno
  exact congrArg Prod.snd hexec

def reportThenKey : Database := { Database.empty with
  heads := (Table.empty.put (stateHead 1)).put laptopHead }

theorem not_headFails_of_ok {draw : String → String} (h : (headResult draw db head).1 = .ok ()) :
    ¬ HeadFails draw db head := by
  rintro ⟨err, herr⟩
  exact absurd (h.symm.trans herr) (by simp)

theorem cleanRetries_reportThenKey : CleanRetries id reportThenKey := by
  intro head hh hr
  rcases List.mem_cons.mp hh with rfl | hh
  · exact headResult_stateHead id reportThenKey 1 rfl
  · obtain rfl := List.mem_singleton.mp hh
    exact absurd hr (by decide)

/-- The key is stored although the report before it fails; the report is what is left, and it fails. -/
theorem report_waits_for_vm :
    isMaterialized (passOnce reportThenKey id) (stateHead 1) = false ∧
    HeadFails id (passOnce reportThenKey id) (stateHead 1) := by
  have hwindow : InWindow reportThenKey := inWindow_of_length_le (by decide)
  have hsecond : CleanRetries id (passOnce reportThenKey id) := by
    intro head hh _
    obtain rfl := List.mem_singleton.mp hh
    exact headResult_stateHead id _ 1 rfl
  have hblocked : Each passOnce NotBlocked reportThenKey [id, id] := by
    refine ⟨notBlocked_of_retries fun head hh hfails => ?_, notBlocked_of_retries fun head hh _ => ?_, trivial⟩
    · rcases List.mem_cons.mp hh with rfl | hh
      · decide
      · obtain rfl := List.mem_singleton.mp hh
        exact absurd hfails (not_headFails_of_ok rfl)
    · obtain rfl := List.mem_singleton.mp hh
      decide
  have h := only_failing_heads_stay_behind reportThenKey hwindow [id, id]
    ⟨cleanRetries_reportThenKey, hsecond, trivial⟩
  have hnot : isMaterialized (passOnce reportThenKey id) (stateHead 1) = false := by decide
  exact ⟨hnot, (h.1.mpr hblocked).2.1 (by decide) (stateHead 1) List.mem_cons_self hnot⟩

def brokenThenKey : Database := { Database.empty with
  heads := (Table.empty.put (keyHead "broken" 1 (.object [("name", .string "broken")]))).put
    laptopHead }

/-- Every pass ends at the broken registration with the same failure and changes nothing. The good one is never
materialised although it would not fail. -/
theorem broken_key_blocks_the_next :
    (∀ n, run passOnce brokenThenKey (List.replicate n id) = brokenThenKey) ∧
    ((processMaterializationOnce id).exec brokenThenKey).1 = .error "missing publicKey for ssh-key/broken" ∧
    isMaterialized brokenThenKey laptopHead = false ∧ ¬ HeadFails id brokenThenKey laptopHead := by
  have hsame : passOnce brokenThenKey id = brokenThenKey := rfl
  refine ⟨fun n => ?_, by decide, by decide, ?_⟩
  · induction n with
    | zero => rfl
    | succ n ih =>
      show run passOnce (passOnce brokenThenKey id) (List.replicate n id) = brokenThenKey
      rw [hsame, ih]
  · exact not_headFails_of_ok rfl

end Kcore
