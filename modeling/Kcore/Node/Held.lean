import Kcore.Lib.Run
import Kcore.Node.Handlers

/-!
# Statuses an operator holds

A host that an operator has cordoned or drained is to stay so until it is uncordoned or deleted, whatever its
agent, the staleness watcher and the other controllers say about it. `held_stays_held_iff` says in which runs of
these it does: the materialiser takes the status of a `node.heartbeat` as it comes, and an approval, local or
materialised, makes every host ready.
-/

namespace Kcore

open Keyed Machine

def nodeStatus (d : DomainTables) (id : String) : Option String := (d.nodes.get id).map (·.status)

def heldNode (d : DomainTables) (id : String) : Bool := (nodeStatus d id).any isOperatorHeldStatus

inductive NodeEvent where
  | register
  | heartbeat
  | approve
  | drain
  | cordon
  | uncordon
  | delete

def NodeEvent.handler : NodeEvent → Handler
  | .register => applyNodeRegister
  | .heartbeat => applyNodeHeartbeat
  | .approve => applyNodeApprove
  | .drain => applyNodeDrain
  | .cordon => applyNodeCordon
  | .uncordon => applyNodeUncordon
  | .delete => applyNodeDelete

inductive NodeAction where
  | register (requireManualApproval : Bool) (req : RegisterNodeRequest)
  | heartbeat (now : String) (req : HeartbeatRequest)
  | expire (now : String) (overdue : String → Bool)
  | approve (nodeId : String)
  | cordon (nodeId : String)
  | setDraining (nodeId : String) (finished : Bool)
  | uncordon (nodeId : String) (force : Bool)
  | delete (nodeId : String)
  | materialize (event : NodeEvent) (c : HeadContext)

namespace NodeAction

def query : NodeAction → Query Unit
  | .register requireManualApproval req => do let _ ← registerNode requireManualApproval req
  | .heartbeat now req => do let _ ← Kcore.heartbeat now req
  | .expire now overdue => expireHeartbeats now overdue
  | .approve nodeId => approveNode nodeId
  | .cordon nodeId => cordonNode nodeId
  | .setDraining nodeId finished => Kcore.setDraining nodeId finished
  | .uncordon nodeId force => uncordonNode nodeId force
  | .delete nodeId => removeNode nodeId
  | .materialize event c => event.handler c

def step (d : DomainTables) (a : NodeAction) : DomainTables := (a.query.exec d).2

def Releases (id : String) : NodeAction → Prop
  | .uncordon nodeId _ => nodeId = id
  | .delete nodeId => nodeId = id
  | .materialize event c => (event = .uncordon ∨ event = .delete) ∧ c.body.str "nodeId" = some id
  | _ => False

def KeepsHeld (d : DomainTables) (a : NodeAction) : Prop :=
  ∀ id, heldNode d id = true → ¬ a.Releases id → heldNode (step d a) id = true

/-- A materialised heartbeat of a held host carries a held status or none; no approval reaches a held host,
except the command for a host that is approved already, which does nothing. -/
def RespectsHold (d : DomainTables) : NodeAction → Prop
  | .approve nodeId => ∀ node, d.nodes.get nodeId = some node → isOperatorHeldStatus node.status = true →
      node.approvalStatus = "approved"
  | .materialize .heartbeat c => ∀ nodeId status, c.body.str "nodeId" = some nodeId → heldNode d nodeId = true →
      c.body.str "status" = some status → isOperatorHeldStatus status = true
  | .materialize .approve c => ∀ nodeId, c.body.str "nodeId" = some nodeId → heldNode d nodeId = false
  | _ => True

end NodeAction

/-! ### What the queries do to the statuses -/

section Statuses

variable {d : DomainTables} {id nodeId status : String}

theorem exists_of_heldNode (h : heldNode d id = true) :
    ∃ n, d.nodes.get id = some n ∧ isOperatorHeldStatus n.status = true := by
  unfold heldNode nodeStatus at h
  cases hget : d.nodes.get id with
  | none => simp [hget] at h
  | some n => exact ⟨n, rfl, by simpa [hget] using h⟩

theorem heldNode_congr {d' : DomainTables} (h : nodeStatus d' id = nodeStatus d id) :
    heldNode d' id = heldNode d id := by
  unfold heldNode
  rw [h]

theorem nodeStatus_of_nodes {d' : DomainTables} (h : d'.nodes = d.nodes) (id : String) :
    nodeStatus d' id = nodeStatus d id := by
  unfold nodeStatus
  rw [h]

theorem nodeStatus_upsertNode (node : NodeRow) (d : DomainTables) (id : String) :
    nodeStatus ((upsertNode node).exec d).2 id = if node.id = id then some node.status else nodeStatus d id := by
  unfold nodeStatus upsertNode
  rw [Tx.exec_write]
  dsimp only
  cases d.nodes.get node.id <;> rw [Table.get_put] <;> dsimp only <;> split <;> rfl

theorem nodeStatus_update (nodeId : String) (f : NodeRow → NodeRow) (hf : ∀ n, (f n).id = n.id) (d : DomainTables)
    (id : String) : nodeStatus { d with nodes := d.nodes.update (·.id = nodeId) f hf } id =
      if nodeId = id then (d.nodes.get id).map fun n => (f n).status else nodeStatus d id := by
  unfold nodeStatus
  dsimp only
  rw [Table.get_update]
  cases hget : d.nodes.get id with
  | none => split <;> rfl
  | some n =>
    have hid : n.id = id := Table.key_of_get hget
    simp only [Option.map_some, hid, decide_eq_true_eq]
    by_cases h : nodeId = id
    · rw [if_pos h.symm, if_pos h]
    · rw [if_neg (Ne.symm h), if_neg h]

theorem nodeStatus_updateNodeStatus (nodeId status : String) (d : DomainTables) (id : String) :
    nodeStatus ((updateNodeStatus nodeId status).exec d).2 id =
      if nodeId = id then (nodeStatus d id).map fun _ => status else nodeStatus d id := by
  refine (nodeStatus_update nodeId _ _ d id).trans ?_
  rw [nodeStatus, Option.map_map]
  rfl

theorem heldNode_updateNodeStatus (hst : isOperatorHeldStatus status = true) (h : heldNode d id = true) :
    heldNode ((updateNodeStatus nodeId status).exec d).2 id = true := by
  obtain ⟨n, hget, -⟩ := exists_of_heldNode h
  unfold heldNode at h ⊢
  rw [nodeStatus_updateNodeStatus]
  split
  · simpa [nodeStatus, hget] using hst
  · exact h

theorem keeps_setNodeApproval (nodeId status : String) (id : String) :
    Tx.Keeps (nodeStatus · id) (setNodeApproval nodeId status) := by
  refine .bind (.read _) fun _ => .bind (.write fun d => ?_) fun _ => .pure _
  exact (nodeStatus_update nodeId _ _ d id).trans (ite_self _)

theorem keeps_upsertNodeLabels (nodeId : String) (labels : List String) :
    Tx.Keeps DomainTables.nodes (upsertNodeLabels nodeId labels) := by
  refine .bind (.write fun _ => rfl) fun _ => ?_
  induction labels with
  | nil => exact .pure _
  | cons label rest ih =>
    have hput : Tx.Keeps DomainTables.nodes (do
        Tx.write fun d => { d with nodeLabels := d.nodeLabels.put ⟨nodeId, label⟩ }
        insertNodeLabels nodeId rest) := .bind (.write fun _ => rfl) fun _ => ih
    refine .bind (.read _) fun _ => .bind (.read _) fun _ => .ite (.bind (.throw _) fun _ => ?_) ?_
    · exact .ite (.bind (.throw _) fun _ => hput) hput
    · exact .ite (.bind (.throw _) fun _ => hput) hput

theorem keeps_applyNodeLabels (nodeId : String) (body : Value) (id : String) :
    Tx.Keeps (nodeStatus · id) (applyNodeLabels nodeId body) := by
  have hlabels := (keeps_upsertNodeLabels nodeId (body.strings "labels")).comp fun nodes =>
    (nodes.get id).map (·.status)
  exact .ite (.pure _) (hlabels.context _)

/-! ### Registration and heartbeats -/

theorem nodeStatus_registerNode (requireManualApproval : Bool) (req : RegisterNodeRequest) (d : DomainTables)
    (id : String) : ∃ approval, nodeStatus ((registerNode requireManualApproval req).exec d).2 id =
      if req.nodeId = id then some (nodeStatusAfterRegister (nodeStatus d id) approval) else nodeStatus d id := by
  have hbackend : ∃ backend, normalizeStorageBackend req.storageBackend false = .ok backend := by
    unfold normalizeStorageBackend
    simp only [Bool.false_eq_true, if_false]
    split_ifs <;> exact ⟨_, rfl⟩
  obtain ⟨backend, hb⟩ := hbackend
  unfold registerNode
  rw [hb, Tx.exec_ofExcept_ok_bind, getNode, Tx.exec_read_bind]
  dsimp only
  have hlabels := (keeps_upsertNodeLabels req.nodeId req.labels).comp fun nodes => (nodes.get id).map (·.status)
  let approval := ((d.nodes.get req.nodeId).map (·.approvalStatus)).getD
    (if requireManualApproval then "pending" else "approved")
  refine ⟨approval, (Tx.Keeps.exec_bind (f := (nodeStatus · id)) (fun _ => ?_) d).trans ?_⟩
  · exact .ite (.bind (hlabels.context _) fun _ => .pure _) (.pure _)
  · rw [Tx.exec_context_snd, nodeStatus_upsertNode]
    dsimp only
    split
    · rename_i h
      rw [← h]
      rfl
    · rfl

theorem heldNode_registerNode (requireManualApproval : Bool) (req : RegisterNodeRequest) (h : heldNode d id = true) :
    heldNode ((registerNode requireManualApproval req).exec d).2 id = true := by
  obtain ⟨approval, hstatus⟩ := nodeStatus_registerNode requireManualApproval req d id
  obtain ⟨n, hget, hheld⟩ := exists_of_heldNode h
  unfold heldNode at h ⊢
  rw [hstatus]
  split
  · simp [nodeStatus, hget, nodeStatusAfterRegister, hheld]
  · exact h

theorem maintains_updateNodeStatus (hst : isOperatorHeldStatus status = true) (nodeId id : String) :
    Tx.Maintains (heldNode · id = true) (updateNodeStatus nodeId status) :=
  fun _ h => heldNode_updateNodeStatus hst h

theorem maintains_updateNodeStatus_of_ne (hne : nodeId ≠ id) (status : String) :
    Tx.Maintains (heldNode · id = true) (updateNodeStatus nodeId status) := by
  intro d h
  have hsame : nodeStatus ((updateNodeStatus nodeId status).exec d).2 id = nodeStatus d id := by
    rw [nodeStatus_updateNodeStatus, if_neg hne]
  rw [heldNode_congr hsame]
  exact h

theorem maintains_of_keeps_nodes {α : Type} {x : Query α} (hx : Tx.Keeps DomainTables.nodes x) (id : String) :
    Tx.Maintains (heldNode · id = true) x :=
  fun d h => (heldNode_congr (nodeStatus_of_nodes (hx d) id)).trans h

theorem nodeStatus_updateHeartbeat (now : String) (req : HeartbeatRequest) (d : DomainTables) (id : String) :
    nodeStatus ((updateHeartbeat now req).exec d).2 id =
      if req.nodeId = id then (d.nodes.get id).map fun n => (n.afterHeartbeat now req).status
      else nodeStatus d id :=
  nodeStatus_update req.nodeId _ _ d id

theorem maintains_updateHeartbeat (now : String) (req : HeartbeatRequest) (id : String) :
    Tx.Maintains (heldNode · id = true) (updateHeartbeat now req) := by
  intro d h
  obtain ⟨n, hget, hheld⟩ := exists_of_heldNode h
  unfold heldNode at h ⊢
  rw [nodeStatus_updateHeartbeat]
  split
  · simp [hget, NodeRow.afterHeartbeat, hheld]
  · exact h

theorem keeps_nodes_clearNodeLost (nodeId : String) : Tx.Keeps DomainTables.nodes (clearNodeLost nodeId) :=
  .bind (.read _) fun _ => .ite (.bind (.write fun _ => rfl) fun _ => .pure _) (.pure _)

theorem maintains_heartbeat (now : String) (req : HeartbeatRequest) (id : String) :
    Tx.Maintains (heldNode · id = true) (heartbeat now req) := by
  have hcordon : Tx.Maintains (heldNode · id = true) (cordonDegraded req.nodeId req.hostHealth) := by
    refine .bind (.read _) fun found => ?_
    cases found with
    | none => exact .pure _
    | some node => exact .ite (maintains_updateNodeStatus (by decide) _ _).ignore (.pure _)
  have hevent : Tx.Maintains (heldNode · id = true) (heartbeatEvent req) := by
    refine .bind (.read _) fun found => ?_
    cases found with
    | none => exact .pure _
    | some node => exact .bind (.read _) fun _ => .pure _
  have hclear := maintains_of_keeps_nodes (keeps_nodes_clearNodeLost req.nodeId) id
  have htail : Tx.Maintains (heldNode · id = true) (do
      (clearNodeLost req.nodeId).ignore
      if req.hostHealth = "degraded" then cordonDegraded req.nodeId req.hostHealth
      heartbeatEvent req) :=
    .bind hclear.ignore fun _ => .ite (.bind hcordon fun _ => hevent) hevent
  exact .bind (maintains_updateHeartbeat now req id) fun _ => .ite (.bind (.throw _) fun _ => htail) htail

/-! ### The staleness watcher -/

theorem keeps_nodes_markNodeLost (now nodeId : String) : Tx.Keeps DomainTables.nodes (markNodeLost now nodeId) := by
  refine .bind (.read _) fun _ => .ite (.bind (.throw _) fun _ => ?_) ?_
  · exact .write fun _ => rfl
  · exact .write fun _ => rfl

theorem maintains_markExpired (now : String) {rows : List NodeRow}
    (hrows : ∀ n ∈ rows, n.id = id → n.status ≠ "ready") :
    Tx.Maintains (heldNode · id = true) (markExpired now rows) := by
  induction rows with
  | nil => exact .pure _
  | cons n rest ih =>
    have hrest := ih fun m hm => hrows m (List.mem_cons_of_mem n hm)
    have hlost := (maintains_of_keeps_nodes (keeps_nodes_markNodeLost now n.id) id).ignore
    have htail := hlost.bind fun _ => hrest
    unfold markExpired
    by_cases hready : n.status = "ready"
    · have hne : n.id ≠ id := fun hid => hrows n List.mem_cons_self hid hready
      rw [if_pos hready]
      exact .bind (maintains_updateNodeStatus_of_ne hne _).ignore fun _ => htail
    · rw [if_neg hready]
      exact htail

theorem maintains_expireHeartbeats (now : String) (overdue : String → Bool) (id : String) :
    Tx.Maintains (heldNode · id = true) (expireHeartbeats now overdue) := by
  intro d h
  unfold expireHeartbeats getHeartbeatExpired
  rw [Tx.exec_read_bind]
  refine maintains_markExpired now (fun n hn hid hready => ?_) d h
  have hget : d.nodes.get id = some n := Table.get_eq_some_iff.mpr ⟨List.mem_of_mem_filter hn, hid⟩
  unfold heldNode nodeStatus at h
  rw [hget, Option.map_some, Option.any_some, hready] at h
  exact absurd h (by decide)

/-! ### Commands -/

theorem exec_requireNode_bind {α : Type} (nodeId : String) (f : NodeRow → Query α) (d : DomainTables) :
    ((requireNode nodeId >>= f).exec d).2 = match d.nodes.get nodeId with
      | some node => ((f node).exec d).2
      | none => d := by
  unfold requireNode getNode
  rw [Tx.exec_bind, Tx.exec_read_bind]
  cases d.nodes.get nodeId <;> rfl

theorem maintains_requireNode {f : NodeRow → Query Unit}
    (hf : ∀ node, node.id = nodeId → Tx.Maintains (heldNode · id = true) (f node)) :
    Tx.Maintains (heldNode · id = true) (requireNode nodeId >>= f) := by
  intro d h
  rw [exec_requireNode_bind]
  cases hget : d.nodes.get nodeId with
  | none => exact h
  | some node => exact hf node (Table.key_of_get hget) d h

theorem maintains_cordonNode (nodeId id : String) : Tx.Maintains (heldNode · id = true) (cordonNode nodeId) := by
  refine maintains_requireNode fun node _ => .ite (.bind ?_ fun _ => .pure _) (.pure _)
  exact (maintains_updateNodeStatus (by decide) _ _).context _

theorem maintains_setDraining (nodeId : String) (finished : Bool) (id : String) :
    Tx.Maintains (heldNode · id = true) (setDraining nodeId finished) := by
  refine maintains_requireNode fun node _ => .bind ?_ fun _ => .pure _
  refine (maintains_updateNodeStatus ?_ _ _).context _
  cases finished <;> decide

theorem maintains_uncordonNode (hne : nodeId ≠ id) (force : Bool) :
    Tx.Maintains (heldNode · id = true) (uncordonNode nodeId force) := by
  refine maintains_requireNode fun node hnode => .ite (.bind (.read _) fun refusal => ?_) (.pure _)
  cases refusal with
  | some text => exact .throw _
  | none =>
    refine .bind ((maintains_updateNodeStatus_of_ne ?_ _).context _) fun _ => .pure _
    rw [hnode]
    exact hne

theorem maintains_deleteNode (hne : nodeId ≠ id) : Tx.Maintains (heldNode · id = true) (deleteNode nodeId) := by
  have hwrite : ∀ d, heldNode d id = true → heldNode { d with
      nodeLabels := d.nodeLabels.filter (·.nodeId ≠ nodeId)
      nodes := d.nodes.erase nodeId
      securityGroupNetworkAttachments := d.securityGroupNetworkAttachments.filter (·.nodeId ≠ nodeId)
      diskLayouts := d.diskLayouts.filter (·.nodeId ≠ nodeId)
      nodeHa := d.nodeHa.erase nodeId
      pendingNodeConfigPush := d.pendingNodeConfigPush.erase nodeId } id = true := by
    intro d h
    unfold heldNode nodeStatus at h ⊢
    dsimp only
    rw [Table.get_erase, if_neg hne]
    exact h
  refine .bind (.read _) fun _ => .bind (.read _) fun _ => .ite (.bind (.throw _) fun _ => ?_) ?_
  · exact .bind (.write hwrite) fun _ => .pure _
  · exact .bind (.write hwrite) fun _ => .pure _

theorem keeps_nodes_revoke (serials : List String) (reason : Int) :
    Tx.Keeps DomainTables.nodes (serials.forM fun serial => revokeCertificateBySerial serial reason) := by
  induction serials with
  | nil => exact .pure _
  | cons serial rest ih => exact .bind (.write fun _ => rfl) fun _ => ih

theorem maintains_removeNode (hne : nodeId ≠ id) : Tx.Maintains (heldNode · id = true) (removeNode nodeId) := by
  refine maintains_requireNode fun node hnode => .bind (.read _) fun refusal => ?_
  subst hnode
  cases refusal with
  | some text => exact .throw _
  | none =>
    refine .bind ((maintains_updateNodeStatus (by decide) _ _).context _) fun _ => .bind (.read _) fun serials => ?_
    refine .bind (maintains_of_keeps_nodes (keeps_nodes_revoke serials 5) id) fun _ => ?_
    exact .bind ((maintains_deleteNode hne).mapErr _) fun removed => .ite (.throw _) (.pure _)

theorem nodeStatus_approve_then_status (nodeId approval status msg msg' : String) (d : DomainTables) (id : String) :
    nodeStatus ((do
        let _ ← (setNodeApproval nodeId approval).context msg
        let _ ← (updateNodeStatus nodeId status).context msg' : Query Unit).exec d).2 id =
      if nodeId = id then (nodeStatus d id).map fun _ => status else nodeStatus d id := by
  have hok : (((setNodeApproval nodeId approval).context msg).exec d).1 = .ok (d.nodes.has nodeId) := by
    rw [Tx.context, Tx.exec_mapErr]
    rfl
  have hkeeps : nodeStatus ((setNodeApproval nodeId approval).exec d).2 id = nodeStatus d id :=
    keeps_setNodeApproval nodeId approval id d
  rw [Tx.exec_bind_of_ok hok, Tx.Keeps.exec_bind (f := (nodeStatus · id)) fun _ => .pure _, Tx.exec_context_snd,
    nodeStatus_updateNodeStatus, Tx.exec_context_snd, hkeeps]

theorem nodeStatus_approveNode (nodeId : String) (d : DomainTables) (id : String) :
    nodeStatus ((approveNode nodeId).exec d).2 id =
      if nodeId = id ∧ (d.nodes.get nodeId).any (·.approvalStatus ≠ "approved") then some "ready"
      else nodeStatus d id := by
  unfold approveNode
  rw [exec_requireNode_bind]
  cases hget : d.nodes.get nodeId with
  | none => simp
  | some node =>
    dsimp only
    by_cases happroved : node.approvalStatus = "approved"
    · rw [if_neg (not_not.mpr happroved), if_neg (by simp [happroved])]
      rfl
    · rw [if_pos happroved, nodeStatus_approve_then_status]
      by_cases hid : nodeId = id
      · subst hid
        simp [nodeStatus, hget, happroved]
      · simp [hid]

/-! ### Materialised events -/

theorem nodeStatus_applyNodeStatus (approval : Option String) (status : String) (c : HeadContext)
    (d : DomainTables) (id : String) :
    nodeStatus ((applyNodeStatus approval status c).exec d).2 id =
      if c.body.str "nodeId" = some id then (nodeStatus d id).map fun _ => status else nodeStatus d id := by
  unfold applyNodeStatus
  rw [exec_requiredStr_bind]
  cases c.body.str "nodeId" with
  | none => simp
  | some nodeId =>
    simp only [Option.some.injEq]
    cases approval with
    | none =>
      refine (Tx.Keeps.exec_bind (f := (nodeStatus · id)) (fun _ => .pure _) d).trans ?_
      rw [Tx.exec_context_snd, nodeStatus_updateNodeStatus]
    | some approval => exact nodeStatus_approve_then_status nodeId approval status _ _ d id

theorem nodeStatus_upsert_then_labels {node : NodeRow} {id : String} (hstatus : node.id = id → node.status = status)
    (msg : String) (body : Value) (d : DomainTables) :
    nodeStatus ((do (upsertNode node).context msg; applyNodeLabels node.id body : Query Unit).exec d).2 id =
      if node.id = id then some status else nodeStatus d id := by
  rw [Tx.Keeps.exec_bind (f := (nodeStatus · id)) fun _ => keeps_applyNodeLabels node.id body id, Tx.exec_context_snd,
    nodeStatus_upsertNode]
  by_cases h : node.id = id
  · rw [if_pos h, if_pos h, hstatus h]
  · rw [if_neg h, if_neg h]

theorem nodeStatus_applyNodeHeartbeat (c : HeadContext) (d : DomainTables) (id : String) :
    nodeStatus ((applyNodeHeartbeat c).exec d).2 id =
      if c.body.str "nodeId" = some id then
        some (((c.body.str "status").or (nodeStatus d id)).getD "pending")
      else nodeStatus d id := by
  unfold applyNodeHeartbeat
  rw [exec_requiredStr_bind]
  cases c.body.str "nodeId" with
  | none => simp
  | some nodeId =>
    simp only [Option.some.injEq]
    rw [getNode, Tx.exec_read_bind]
    refine nodeStatus_upsert_then_labels (fun h => ?_) _ _ _
    rw [← show nodeId = id from h]
    rfl

theorem nodeStatus_applyNodeRegister (c : HeadContext) (d : DomainTables) (id : String) :
    nodeStatus ((applyNodeRegister c).exec d).2 id =
      if c.body.str "nodeId" = some id then
        some (registerStatus c.body (d.nodes.get id) ((c.body.str "approvalStatus").getD "pending"))
      else nodeStatus d id := by
  unfold applyNodeRegister
  rw [exec_requiredStr_bind]
  cases c.body.str "nodeId" with
  | none => simp
  | some nodeId =>
    simp only [Option.some.injEq]
    rw [getNode, Tx.exec_read_bind]
    refine nodeStatus_upsert_then_labels (fun h => ?_) _ _ _
    rw [← show nodeId = id from h]
    rfl

theorem maintains_applyNodeRegister (c : HeadContext) (id : String) :
    Tx.Maintains (heldNode · id = true) (applyNodeRegister c) := by
  intro d h
  obtain ⟨n, hget, hheld⟩ := exists_of_heldNode h
  unfold heldNode at h ⊢
  rw [nodeStatus_applyNodeRegister]
  split
  · simp [hget, registerStatus, nodeStatusAfterRegister, hheld]
  · exact h

theorem maintains_applyNodeStatus (hst : isOperatorHeldStatus status = true) (approval : Option String)
    (c : HeadContext) (id : String) : Tx.Maintains (heldNode · id = true) (applyNodeStatus approval status c) := by
  intro d h
  obtain ⟨n, hget, -⟩ := exists_of_heldNode h
  unfold heldNode at h ⊢
  rw [nodeStatus_applyNodeStatus]
  split
  · simpa [nodeStatus, hget] using hst
  · exact h

theorem maintains_applyNodeDelete {c : HeadContext} (hne : c.body.str "nodeId" ≠ some id) :
    Tx.Maintains (heldNode · id = true) (applyNodeDelete c) := by
  intro d h
  unfold applyNodeDelete
  rw [exec_requiredStr_bind]
  cases hs : c.body.str "nodeId" with
  | none => exact h
  | some nodeId =>
    have hother : nodeId ≠ id := fun heq => hne (heq ▸ hs)
    have hall : Tx.Maintains (heldNode · id = true) (do
        let serials ← findRevocableSerials "" nodeId
        serials.forM fun serial => revokeCertificateBySerial serial 5
        let _ ← (deleteNode nodeId).context ("delete node " ++ nodeId) : Query Unit) := by
      refine .bind (.read _) fun serials => ?_
      refine .bind (maintains_of_keeps_nodes (keeps_nodes_revoke serials 5) id) fun _ => ?_
      exact .bind ((maintains_deleteNode hother).context _) fun _ => .pure _
    exact hall d h

end Statuses

/-! ### Runs -/

namespace NodeAction

variable {d : DomainTables}

theorem keepsHeld_of_maintains {a : NodeAction}
    (h : ∀ id, ¬ a.Releases id → Tx.Maintains (heldNode · id = true) a.query) : KeepsHeld d a :=
  fun id hheld hrel => h id hrel d hheld

theorem keepsHeld_approve_iff (nodeId : String) :
    KeepsHeld d (.approve nodeId) ↔ RespectsHold d (.approve nodeId) := by
  have hafter : ∀ id, nodeStatus (step d (.approve nodeId)) id = _ := nodeStatus_approveNode nodeId d
  constructor
  · intro h node hget hheld
    by_contra hnot
    have hkeep := h nodeId (by simp [heldNode, nodeStatus, hget, hheld]) id
    unfold heldNode at hkeep
    rw [hafter, if_pos ⟨rfl, by simp [hget, hnot]⟩] at hkeep
    exact absurd hkeep (by decide)
  · intro h id hheld _
    have hsame : nodeStatus (step d (.approve nodeId)) id = nodeStatus d id := by
      rw [hafter]
      refine if_neg ?_
      rintro ⟨rfl, hany⟩
      cases hget : d.nodes.get nodeId with
      | none => rw [hget] at hany; exact absurd hany (by simp)
      | some node =>
        have hst : isOperatorHeldStatus node.status = true := by simpa [heldNode, nodeStatus, hget] using hheld
        rw [hget, Option.any_some, h node hget hst] at hany
        exact absurd hany (by simp)
    rw [heldNode_congr hsame]
    exact hheld

theorem keepsHeld_heartbeat_iff (c : HeadContext) :
    KeepsHeld d (.materialize .heartbeat c) ↔ RespectsHold d (.materialize .heartbeat c) := by
  have hafter : ∀ id, nodeStatus (step d (.materialize .heartbeat c)) id = _ := nodeStatus_applyNodeHeartbeat c d
  constructor
  · intro h nodeId status hid hheld hstatus
    have hkeep := h nodeId hheld (by simp [Releases])
    unfold heldNode at hkeep
    rw [hafter, if_pos hid, hstatus] at hkeep
    simpa using hkeep
  · intro h id hheld _
    unfold heldNode at hheld ⊢
    rw [hafter]
    split
    · rename_i hid
      cases hstatus : c.body.str "status" with
      | some status => simpa using h id status hid hheld hstatus
      | none =>
        cases hs : nodeStatus d id with
        | none => rw [hs] at hheld; exact absurd hheld (by simp)
        | some s => rw [hs] at hheld; simpa using hheld
    · exact hheld

theorem keepsHeld_approveEvent_iff (c : HeadContext) :
    KeepsHeld d (.materialize .approve c) ↔ RespectsHold d (.materialize .approve c) := by
  have hafter : ∀ id, nodeStatus (step d (.materialize .approve c)) id = _ :=
    nodeStatus_applyNodeStatus (some "approved") "ready" c d
  constructor
  · intro h nodeId hid
    by_contra hheld
    have hheld : heldNode d nodeId = true := by simpa using hheld
    have hkeep := h nodeId hheld (by simp [Releases])
    unfold heldNode at hheld hkeep
    rw [hafter, if_pos hid] at hkeep
    cases hs : nodeStatus d nodeId with
    | none => rw [hs] at hheld; exact absurd hheld (by simp)
    | some s =>
      rw [hs, Option.map_some, Option.any_some] at hkeep
      exact absurd hkeep (by decide)
  · intro h id hheld _
    have hne : c.body.str "nodeId" ≠ some id := fun hid => absurd (h id hid) (by simp [hheld])
    rw [heldNode_congr ((hafter id).trans (if_neg hne))]
    exact hheld

theorem keepsHeld_iff (a : NodeAction) : KeepsHeld d a ↔ RespectsHold d a := by
  cases a with
  | register requireManualApproval req =>
    refine iff_of_true (fun id h _ => ?_) trivial
    exact (Tx.Keeps.exec_bind (f := (heldNode · id)) (fun _ => .pure _) d).trans
      (heldNode_registerNode requireManualApproval req h)
  | heartbeat now req =>
    exact iff_of_true (keepsHeld_of_maintains fun id _ => .bind (maintains_heartbeat now req id) fun _ => .pure _)
      trivial
  | expire now overdue =>
    exact iff_of_true (keepsHeld_of_maintains fun id _ => maintains_expireHeartbeats now overdue id) trivial
  | approve nodeId => exact keepsHeld_approve_iff nodeId
  | cordon nodeId => exact iff_of_true (keepsHeld_of_maintains fun id _ => maintains_cordonNode nodeId id) trivial
  | setDraining nodeId finished =>
    exact iff_of_true (keepsHeld_of_maintains fun id _ => maintains_setDraining nodeId finished id) trivial
  | uncordon nodeId force =>
    exact iff_of_true (keepsHeld_of_maintains fun id hrel => maintains_uncordonNode hrel force) trivial
  | delete nodeId => exact iff_of_true (keepsHeld_of_maintains fun id hrel => maintains_removeNode hrel) trivial
  | materialize event c =>
    cases event with
    | register => exact iff_of_true (keepsHeld_of_maintains fun id _ => maintains_applyNodeRegister c id) trivial
    | heartbeat => exact keepsHeld_heartbeat_iff c
    | approve => exact keepsHeld_approveEvent_iff c
    | drain | cordon =>
      exact iff_of_true (keepsHeld_of_maintains fun id _ => maintains_applyNodeStatus (by decide) none c id) trivial
    | uncordon =>
      refine iff_of_true (fun id hheld hrel => ?_) trivial
      have hne : c.body.str "nodeId" ≠ some id := fun hid => hrel ⟨.inl rfl, hid⟩
      have hafter := nodeStatus_applyNodeStatus none "ready" c d id
      rw [if_neg hne] at hafter
      exact (heldNode_congr hafter).trans hheld
    | delete =>
      refine iff_of_true (keepsHeld_of_maintains fun id hrel => ?_) trivial
      exact maintains_applyNodeDelete fun hid => hrel ⟨.inr rfl, hid⟩

end NodeAction

/-- **Held statuses are sticky.** A host the operator holds stays held until it is uncordoned or deleted, exactly when
no materialised heartbeat of a held host carries another status and no approval reaches a held host. -/
theorem held_stays_held_iff (d : DomainTables) (acts : List NodeAction) :
    Each NodeAction.step NodeAction.KeepsHeld d acts ↔ Each NodeAction.step NodeAction.RespectsHold d acts := by
  have htriv : Each NodeAction.step (fun _ _ => True) d acts := each_of_mem fun _ _ _ => trivial
  exact each_congr htriv fun d a _ => NodeAction.keepsHeld_iff a

def drainedHost : NodeRow := { placeholderNode "node-a" with status := "drained", approvalStatus := "approved" }

def readyElsewhere : HeadContext where
  resourceKey := "node/node-a"
  body := heartbeatBody { drainedHost with status := "ready" } [] ⟨"node-a", 0, 0, 30, "tpm2", "ok"⟩
  freshId := ""

theorem peer_heartbeat_clears_drain :
    ¬ Each NodeAction.step NodeAction.KeepsHeld { DomainTables.empty with nodes := Table.empty.put drainedHost }
      [.materialize .heartbeat readyElsewhere] := by
  intro h
  have hheld := h.1 "node-a" (by decide) (by simp [NodeAction.Releases])
  exact absurd hheld (by decide)

end Kcore
