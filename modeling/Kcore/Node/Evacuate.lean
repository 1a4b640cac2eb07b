import Kcore.Lib.Run
import Kcore.Store.Node
import Mathlib.Data.List.Sort
import Mathlib.Data.String.Basic

/-!
# Disk layouts on nodes that are evacuated

The disk layout reconciler marks a node as draining, evacuates it, applies the layout and writes the node's earlier
status back. The earlier status is read at the start of each tick. A tick that fails after the first write leaves the
node draining, so that the next tick reads that status and writes `ready`, whatever the operator had set.
-/

namespace Kcore.Evacuate

open Keyed

structure ApplyDiskLayoutResponse where
  success : Bool
  refusalReason : String
  message : String

structure DiskLayoutStatusRow where
  name : String
  observedGeneration : Int
  phase : String
  refusalReason : String
  message : String

structure Database where
  domain : DomainTables
  statuses : Table DiskLayoutStatusRow.name

def onDomain {α : Type} (query : Query α) : Tx Database α :=
  Tx.zoom Database.domain (fun d db => { db with domain := d }) query

inductive Call where
  | getNode
  | cordon
  | evacuating
  | restore
  | refused
  | listing
  | complete
  | address
  | applied
  | failed

/-- What the reconciler meets when it works on a row: the calls that fail, the outcome of the drain with its list of
errors, the VMs on the node that are listed afterwards and the outcome of the call to the node. -/
structure Chance where
  fails : Call → Option String
  drain : Except String (List String)
  vms : List String
  apply : Except String ApplyDiskLayoutResponse

def Chance.perform {α : Type} (chance : Chance) (call : Call) (x : Tx Database α) : Tx Database α :=
  match chance.fails call with
  | some e => throw e
  | none => x

def upsertDiskLayoutStatus (row : DiskLayoutStatusRow) : Tx Database Unit :=
  Tx.write fun db => { db with statuses := db.statuses.put row }

/-! ### One row -/

def schedulableStatusAfterEvacuate (priorStatus : String) : String :=
  if priorStatus = "draining" ∨ priorStatus = "drained" then "ready" else priorStatus

def phaseOf (resp : ApplyDiskLayoutResponse) : String :=
  if resp.success then "applied" else if resp.refusalReason ≠ "" then "refused" else "failed"

def applyDiskLayoutOnNode (chance : Chance) (row : DiskLayoutRow) : Tx Database Unit := do
  let node ← (chance.perform .address (onDomain (getNode row.nodeId))).context ("lookup node " ++ row.nodeId)
  let node ← Tx.okOr node ("node " ++ row.nodeId ++ " not registered")
  if node.address = "" then throw ("node " ++ row.nodeId ++ " has no address")
  let resp ← Tx.ofExcept chance.apply
  (chance.perform .applied (upsertDiskLayoutStatus
    ⟨row.name, row.generation, phaseOf resp, resp.refusalReason, resp.message⟩)).context
      ("upsert status for " ++ row.name)

/-- The VMs stay: the node is given back with its earlier status and the generation counts as seen. -/
def refuseEvacuation (chance : Chance) (row : DiskLayoutRow) (restoreStatus message : String) : Tx Database Unit := do
  (chance.perform .restore (onDomain (updateNodeStatus row.nodeId restoreStatus))).ignore
  (chance.perform .refused (upsertDiskLayoutStatus
    ⟨row.name, row.generation, "refused", "evacuation_failed", message⟩)).context ("upsert status for " ++ row.name)

def applyEvacuated (chance : Chance) (row : DiskLayoutRow) (restoreStatus : String) : Tx Database Unit := do
  (chance.perform .complete (upsertDiskLayoutStatus
    ⟨row.name, 0, "pending", "", "evacuation complete; applying disk layout"⟩)).context
      ("update status for " ++ row.name)
  let result ← (applyDiskLayoutOnNode chance row).attempt
  (chance.perform .restore (onDomain (updateNodeStatus row.nodeId restoreStatus))).ignore
  Tx.ofExcept result

/-- `reconcile_row_with_evacuate`, once the node's status has been read. -/
def evacuateRow (chance : Chance) (row : DiskLayoutRow) (restoreStatus : String) : Tx Database Unit := do
  let _ ← (chance.perform .cordon (onDomain (updateNodeStatus row.nodeId "draining"))).context
    ("cordon node " ++ row.nodeId)
  (chance.perform .evacuating (upsertDiskLayoutStatus
    ⟨row.name, 0, "pending", "", "cordoned node (not schedulable); evacuating VMs"⟩)).context
      ("update status for " ++ row.name)
  let errors ← (Tx.ofExcept chance.drain).context ("evacuate VMs on " ++ row.nodeId)
  if errors ≠ [] then refuseEvacuation chance row restoreStatus ("; ".intercalate errors)
  else do
    let remaining ← (chance.perform .listing (pure chance.vms)).context ("listing vms on " ++ row.nodeId ++
      " after drain")
    if remaining ≠ [] then
      refuseEvacuation chance row restoreStatus ("node still hosts VM(s): " ++ ", ".intercalate remaining)
    else applyEvacuated chance row restoreStatus

def reconcileRowWithEvacuate (chance : Chance) (row : DiskLayoutRow) : Tx Database Unit := do
  let node ← (chance.perform .getNode (onDomain (getNode row.nodeId))).context ("lookup node " ++ row.nodeId)
  let node ← Tx.okOr node ("node " ++ row.nodeId ++ " not registered")
  evacuateRow chance row (schedulableStatusAfterEvacuate node.status)

def reconcileRowRefuseIfVms (chance : Chance) (row : DiskLayoutRow) : Tx Database Unit := do
  let vms ← (chance.perform .listing (pure chance.vms)).context ("listing vms on " ++ row.nodeId)
  if vms ≠ [] then
    throw ("node " ++ row.nodeId ++ " still hosts " ++ toString vms.length ++ " VM(s) (" ++ ", ".intercalate vms ++
      "); drain or migrate them before applying a disk layout")
  else applyDiskLayoutOnNode chance row

def reconcileRow (chance : Chance) (row : DiskLayoutRow) : Tx Database Unit :=
  if row.evacuate then reconcileRowWithEvacuate chance row else reconcileRowRefuseIfVms chance row

/-! ### One tick -/

def listDiskLayoutsNeedingReconcile (db : Database) : List DiskLayoutRow :=
  (db.domain.diskLayouts.rows.filter fun row =>
    (db.statuses.get row.name).all fun status => status.observedGeneration < row.generation).insertionSort
      fun a b => a.name ≤ b.name

def reconcileOrFail (chance : Chance) (row : DiskLayoutRow) : Tx Database Unit :=
  tryCatch (reconcileRow chance row) fun e =>
    (chance.perform .failed
      (upsertDiskLayoutStatus ⟨row.name, 0, "failed", "", "controller reconcile error: " ++ e⟩)).ignore

def pass (db : Database) (p : DiskLayoutRow × Chance) : Database := ((reconcileOrFail p.2 p.1).exec db).2

structure Tick where
  listed : Bool
  chance : DiskLayoutRow → Chance

def passes (db : Database) (tick : Tick) : List (DiskLayoutRow × Chance) :=
  if tick.listed then (listDiskLayoutsNeedingReconcile db).map fun row => (row, tick.chance row) else []

def reconcileOnce (db : Database) (tick : Tick) : Database := Machine.run pass db (passes db tick)

/-! ### The status of a node -/

def statusOf (db : Database) (id : String) : Option String := (db.domain.nodes.get id).map (·.status)

def Kept (id prior : String) (db : Database) : Prop := statusOf db id = some prior ∨ statusOf db id = some "draining"

theorem statusOf_updateNodeStatus (db : Database) (nodeId status id : String) :
    statusOf ((onDomain (updateNodeStatus nodeId status)).exec db).2 id =
      (statusOf db id).map fun old => if nodeId = id then status else old := by
  change ((db.domain.nodes.update (·.id = nodeId) (fun n => { n with status := status }) fun _ => rfl).get id).map
    (·.status) = _
  rw [Table.get_update, statusOf, Option.map_map, Option.map_map]
  cases hrow : db.domain.nodes.get id with
  | none => rfl
  | some row =>
    have hid : row.id = id := Table.key_of_get hrow
    by_cases h : nodeId = id
    · simp [hid, h]
    · simp [hid, h, Ne.symm h]

section

variable {id prior : String}

theorem maintains_perform {α : Type} {P : Database → Prop} (chance : Chance) (call : Call) {x : Tx Database α}
    (hx : Tx.Maintains P x) : Tx.Maintains P (chance.perform call x) := by
  unfold Chance.perform
  cases chance.fails call with
  | none => exact hx
  | some e => exact .throw e

theorem maintains_upsertStatus (row : DiskLayoutStatusRow) :
    Tx.Maintains (Kept id prior) (upsertDiskLayoutStatus row) :=
  .write fun _ h => h

theorem maintains_getNode (nodeId : String) : Tx.Maintains (Kept id prior) (onDomain (getNode nodeId)) := fun _ h => h

theorem maintains_okOr {α : Type} (o : Option α) (e : String) :
    Tx.Maintains (Kept id prior) (Tx.okOr o e : Tx Database α) := by
  cases o
  · exact .throw e
  · exact .pure _

theorem maintains_updateNodeStatus {nodeId status : String} (h : status = "draining" ∨ (nodeId = id → status = prior)) :
    Tx.Maintains (Kept id prior) (onDomain (updateNodeStatus nodeId status)) := by
  intro db hdb
  unfold Kept at hdb ⊢
  rw [statusOf_updateNodeStatus]
  by_cases hid : nodeId = id
  · rcases h with rfl | h
    · rcases hdb with hdb | hdb <;> simp [hdb, hid]
    · rcases hdb with hdb | hdb <;> simp [hdb, hid, h hid]
  · rcases hdb with hdb | hdb <;> simp [hdb, hid]

theorem maintains_apply (chance : Chance) (row : DiskLayoutRow) :
    Tx.Maintains (Kept id prior) (applyDiskLayoutOnNode chance row) := by
  refine .bind (.context _ (maintains_perform _ _ (maintains_getNode _))) fun node => ?_
  refine .bind (maintains_okOr _ _) fun node => ?_
  refine .ite (.bind (.throw _) fun _ => ?_) ?_
  all_goals exact .bind (.ofExcept _) fun resp => .context _ (maintains_perform _ _ (maintains_upsertStatus _))

variable {row : DiskLayoutRow} {restoreStatus : String} (hrestore : row.nodeId = id → restoreStatus = prior)

include hrestore

theorem maintains_restore (chance : Chance) :
    Tx.Maintains (Kept id prior)
      (chance.perform .restore (onDomain (updateNodeStatus row.nodeId restoreStatus))).ignore :=
  .ignore (maintains_perform _ _ (maintains_updateNodeStatus (.inr hrestore)))

theorem maintains_refuse (chance : Chance) (message : String) :
    Tx.Maintains (Kept id prior) (refuseEvacuation chance row restoreStatus message) := by
  refine .bind (maintains_restore hrestore chance) fun _ => ?_
  exact .context _ (maintains_perform _ _ (maintains_upsertStatus _))

theorem maintains_applyEvacuated (chance : Chance) :
    Tx.Maintains (Kept id prior) (applyEvacuated chance row restoreStatus) := by
  refine .bind (.context _ (maintains_perform _ _ (maintains_upsertStatus _))) fun _ => ?_
  refine .bind ?_ fun result => .bind (maintains_restore hrestore chance) fun _ => .ofExcept result
  intro db hdb
  rw [Tx.exec_attempt]
  exact maintains_apply chance row db hdb

theorem maintains_evacuateRow (chance : Chance) :
    Tx.Maintains (Kept id prior) (evacuateRow chance row restoreStatus) := by
  refine .bind (.context _ (maintains_perform _ _ (maintains_updateNodeStatus (.inl rfl)))) fun _ => ?_
  refine .bind (.context _ (maintains_perform _ _ (maintains_upsertStatus _))) fun _ => ?_
  refine .bind (.context _ (.ofExcept _)) fun errors => ?_
  refine .ite (maintains_refuse hrestore chance _) ?_
  refine .bind (.context _ (maintains_perform _ _ (.pure _))) fun remaining => ?_
  exact .ite (maintains_refuse hrestore chance _) (maintains_applyEvacuated hrestore chance)

end

/-! ### Runs -/

def NotBegun (id : String) (db : Database) (p : DiskLayoutRow × Chance) : Prop :=
  p.1.evacuate = true → p.1.nodeId = id → statusOf db id ≠ some "draining" ∧ statusOf db id ≠ some "drained"

theorem exec_lookup (chance : Chance) (call : Call) (nodeId : String) (db : Database) :
    ∃ r, ((chance.perform call (onDomain (getNode nodeId))).context ("lookup node " ++ nodeId)).exec db = (r, db) ∧
      ∀ node, r = .ok node → node = db.domain.nodes.get nodeId := by
  unfold Chance.perform
  cases chance.fails call with
  | some e => exact ⟨.error _, rfl, fun node h => (nomatch h)⟩
  | none => exact ⟨.ok (db.domain.nodes.get nodeId), rfl, fun node h => (Except.ok.inj h).symm⟩

theorem kept_evacuate {id prior : String} {db : Database} {row : DiskLayoutRow} (chance : Chance)
    (hkept : Kept id prior db)
    (hbegun : row.nodeId = id → statusOf db id ≠ some "draining" ∧ statusOf db id ≠ some "drained") :
    Kept id prior ((reconcileRowWithEvacuate chance row).exec db).2 := by
  unfold reconcileRowWithEvacuate
  obtain ⟨r, hexec, hr⟩ := exec_lookup chance .getNode row.nodeId db
  rw [Tx.exec_bind, hexec]
  cases r with
  | error e => exact hkept
  | ok node =>
    obtain rfl := hr node rfl
    cases hrow : db.domain.nodes.get row.nodeId with
    | none => exact hkept
    | some node =>
      refine maintains_evacuateRow (fun hid => ?_) chance db hkept
      -- the status that was read is the earlier one, as the node is not draining
      have hstatus : statusOf db id = some node.status := by rw [statusOf, ← hid, hrow]; rfl
      obtain ⟨hdraining, hdrained⟩ := hbegun hid
      rw [hstatus, ne_eq, Option.some.injEq] at hdraining hdrained
      rw [schedulableStatusAfterEvacuate, if_neg (not_or.mpr ⟨hdraining, hdrained⟩)]
      rcases hkept with h | h
      · exact Option.some.inj (hstatus.symm.trans h)
      · exact absurd (Option.some.inj (hstatus.symm.trans h)) hdraining

theorem kept_pass {id prior : String} {db : Database} {p : DiskLayoutRow × Chance} (hkept : Kept id prior db)
    (hbegun : NotBegun id db p) : Kept id prior (pass db p) := by
  have hrow : Kept id prior ((reconcileRow p.2 p.1).exec db).2 := by
    unfold reconcileRow
    split_ifs with hev
    · exact kept_evacuate p.2 hkept (hbegun hev)
    · refine Tx.Maintains.bind (.context _ (maintains_perform _ _ (.pure _))) (fun vms => ?_) db hkept
      exact .ite (.throw _) (maintains_apply p.2 p.1)
  unfold pass reconcileOrFail
  rw [Tx.exec_tryCatch]
  rcases hexec : (reconcileRow p.2 p.1).exec db with ⟨e | u, db'⟩
  · rw [hexec] at hrow
    exact Tx.Maintains.ignore (maintains_perform _ _ (maintains_upsertStatus _)) db' hrow
  · rw [hexec] at hrow
    exact hrow

theorem kept_reconcileOnce {id prior : String} {db : Database} {tick : Tick} (hkept : Kept id prior db)
    (hbegun : Machine.Each pass (NotBegun id) db (passes db tick)) : Kept id prior (reconcileOnce db tick) :=
  (Machine.along_of_each hkept (fun _ _ => kept_pass) hbegun).last

/-- A node that an operator holds is not made ready by ticks that never begin to evacuate it while it is draining. -/
theorem held_node_not_ready (db : Database) (ticks : List Tick) (id prior : String)
    (hprior : prior = "cordoned" ∨ prior = "not-ready") (hstatus : statusOf db id = some prior)
    (hbegun : Machine.Each reconcileOnce (fun db tick => Machine.Each pass (NotBegun id) db (passes db tick)) db
      ticks) :
    Machine.Along reconcileOnce (fun db => statusOf db id ≠ some "ready") db ticks := by
  have hkept := Machine.along_of_each (P := Kept id prior) (.inl hstatus) (fun _ _ => kept_reconcileOnce) hbegun
  refine hkept.mono fun db' h => ?_
  rcases hprior with rfl | rfl <;> rcases h with h | h <;> simp [h]

/-! ### A tick after one that failed -/

def cordonedNode : Database where
  domain := { DomainTables.empty with
    nodes := Table.empty.put ⟨"n1", "n1", "n1:9091", 4, 8, "cordoned", "", "", 0, 0, "", false,
      "approved", 0, "", "dc1"⟩
    diskLayouts := Table.empty.put ⟨"l1", "n1", 1, "layout", true⟩ }
  statuses := .empty

def smooth : Chance := ⟨fun _ => none, .ok [], [], .ok ⟨true, "", ""⟩⟩

/-- The drain fails in the first tick, and the second tick goes well. -/
theorem cordon_lost_after_failed_drain :
    statusOf cordonedNode "n1" = some "cordoned" ∧
    ¬Machine.Along reconcileOnce (fun db => statusOf db "n1" ≠ some "ready") cordonedNode
      [⟨true, fun _ => { smooth with drain := .error "listing vms: database is locked" }⟩,
        ⟨true, fun _ => smooth⟩] := by
  refine ⟨by decide, fun h => ?_⟩
  exact h.last (by decide)

/-- The node does not answer in the first tick, and the second one goes well. -/
theorem held_node_not_ready_smooth :
    Machine.Along reconcileOnce (fun db => statusOf db "n1" ≠ some "ready") cordonedNode
      [⟨true, fun _ => { smooth with apply := .error "unreachable" }⟩, ⟨true, fun _ => smooth⟩] := by
  refine held_node_not_ready cordonedNode _ "n1" "cordoned" (.inl rfl) (by decide) ⟨?_, ?_, trivial⟩
  · exact ⟨fun _ _ => ⟨by decide, by decide⟩, trivial⟩
  · exact ⟨fun _ _ => ⟨by decide, by decide⟩, trivial⟩

end Kcore.Evacuate
