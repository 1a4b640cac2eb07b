import Kcore.Node.Held

/-!
# The heartbeat snapshot of a host

A heartbeat is logged with the row it leaves on the controller that received it, and a follower that materialises
the event is to end with the same row. `heartbeat_snapshot_agrees_iff` says when it does: the body does not carry
the data centre, it has no code for the backend `ceph`, and the upsert never changes the approval of a row that is
there.
-/

namespace Kcore

open Keyed

structure NodeRow.Typed (n : NodeRow) : Prop where
  cpuCores : FitsI32 n.cpuCores
  memoryBytes : fitsI64 n.memoryBytes = true

structure HeartbeatRequest.Typed (req : HeartbeatRequest) : Prop where
  cpuUsed : FitsI32 req.cpuUsed
  memoryUsed : fitsI64 req.memoryUsed = true
  certExpiryDays : FitsI32 req.certExpiryDays

structure NodeRow.Agrees (a b : NodeRow) : Prop where
  hostname : a.hostname = b.hostname
  address : a.address = b.address
  cpuCores : a.cpuCores = b.cpuCores
  memoryBytes : a.memoryBytes = b.memoryBytes
  cpuUsed : a.cpuUsed = b.cpuUsed
  memoryUsed : a.memoryUsed = b.memoryUsed
  status : a.status = b.status
  storageBackend : a.storageBackend = b.storageBackend
  disableVxlan : a.disableVxlan = b.disableVxlan
  approvalStatus : a.approvalStatus = b.approvalStatus
  luksMethod : a.luksMethod = b.luksMethod
  certExpiryDays : a.certExpiryDays = b.certExpiryDays
  dcId : a.dcId = b.dcId

theorem fitsI64_of_fitsI32 {v : Int} (h : FitsI32 v) : fitsI64 v = true := by
  obtain ⟨hlo, hhi⟩ := h
  unfold fitsI64
  rw [decide_eq_true_eq]
  omega

/-! ### The encoder -/

variable {d : DomainTables} {req : HeartbeatRequest} {node : NodeRow}

theorem exec_updateHeartbeat (hnode : d.nodes.get req.nodeId = some node) (now : String) :
    ((updateHeartbeat now req).exec d).1 = .ok true ∧
      ((updateHeartbeat now req).exec d).2.nodes.get req.nodeId = some (node.afterHeartbeat now req) := by
  have hid : node.id = req.nodeId := Table.key_of_get hnode
  unfold updateHeartbeat
  rw [Tx.exec_read_bind, Tx.exec_write_bind, Tx.exec_pure]
  dsimp only
  rw [Table.get_update, hnode, Table.has, hnode]
  simp [hid]

theorem exec_cordonDegraded {nodeId : String} (hnode : d.nodes.get nodeId = some node) (hostHealth : String) :
    ((cordonDegraded nodeId hostHealth).exec d).1 = .ok () ∧
      ∃ status, ((cordonDegraded nodeId hostHealth).exec d).2.nodes.get nodeId =
        some { node with status := status } := by
  have hid : node.id = nodeId := Table.key_of_get hnode
  unfold cordonDegraded
  rw [getNode, Tx.exec_read_bind, hnode]
  dsimp only
  split
  · rw [Tx.exec_ignore]
    refine ⟨rfl, "cordoned", ?_⟩
    unfold updateNodeStatus
    rw [Tx.exec_read_bind, Tx.exec_write_bind, Tx.exec_pure]
    dsimp only
    rw [Table.get_update, hnode]
    simp [hid]
  · exact ⟨rfl, node.status, hnode⟩

theorem exec_heartbeat (hnode : d.nodes.get req.nodeId = some node) (now : String) :
    ∃ after labels status, ((heartbeat now req).exec d).1 = .ok (some (heartbeatBody after labels req)) ∧
      ((heartbeat now req).exec d).2.nodes.get req.nodeId = some after ∧
      after = { node.afterHeartbeat now req with status := status } := by
  obtain ⟨hfound, hupdated⟩ := exec_updateHeartbeat hnode now
  have hclear : (((clearNodeLost req.nodeId).ignore).exec ((updateHeartbeat now req).exec d).2).1 = .ok () := by
    rw [Tx.exec_ignore]
  have hkept : (((clearNodeLost req.nodeId).ignore).exec ((updateHeartbeat now req).exec d).2).2.nodes.get req.nodeId =
      some (node.afterHeartbeat now req) := by
    rw [Tx.exec_ignore, keeps_nodes_clearNodeLost]
    exact hupdated
  have hevent : ∀ (d' : DomainTables) (after : NodeRow), d'.nodes.get req.nodeId = some after →
      (heartbeatEvent req).exec d' = (.ok (some (heartbeatBody after
        ((d'.nodeLabels.rows.filter (·.nodeId = req.nodeId)).map (·.label)) req)), d') := by
    intro d' after hafter
    unfold heartbeatEvent
    rw [getNode, Tx.exec_read_bind, hafter]
    rfl
  unfold heartbeat
  rw [Tx.exec_bind_of_ok hfound, if_neg (by simp), Tx.exec_bind_of_ok hclear]
  generalize ((clearNodeLost req.nodeId).ignore.exec ((updateHeartbeat now req).exec d).2).2 = d' at hkept
  by_cases hdegraded : req.hostHealth = "degraded"
  · obtain ⟨hok, status, hcordoned⟩ := exec_cordonDegraded hkept req.hostHealth
    rw [if_pos hdegraded, Tx.exec_bind_of_ok hok, hevent _ _ hcordoned]
    exact ⟨_, _, status, rfl, hcordoned, rfl⟩
  · rw [if_neg hdegraded, hevent _ _ hkept]
    exact ⟨_, _, _, rfl, hkept, rfl⟩

/-! ### The decoder -/

theorem nodes_applyNodeHeartbeat {c : HeadContext} {nodeId : String} (hid : c.body.str "nodeId" = some nodeId)
    (f : DomainTables) :
    ((applyNodeHeartbeat c).exec f).2.nodes.get nodeId =
      let existing := f.nodes.get nodeId
      let row := nodeFromBody c.body existing nodeId nodeId
        (((c.body.str "status").or (existing.map (·.status))).getD "pending")
        (((c.body.boolean "disableVxlan").or (existing.map (·.disableVxlan))).getD false)
        (((c.body.str "approvalStatus").or (existing.map (·.approvalStatus))).getD "pending")
      some (match existing with
        | some old => { row with approvalStatus := old.approvalStatus }
        | none => row) := by
  have hlabels : Tx.Keeps DomainTables.nodes (applyNodeLabels nodeId c.body) :=
    .ite (.pure _) ((keeps_upsertNodeLabels nodeId _).context _)
  unfold applyNodeHeartbeat
  rw [exec_requiredStr_bind, hid]
  dsimp only
  rw [getNode, Tx.exec_read_bind, Tx.Keeps.exec_bind fun _ => hlabels, Tx.exec_context_snd]
  unfold upsertNode
  rw [Tx.exec_write]
  dsimp only [nodeFromBody]
  cases f.nodes.get nodeId <;> exact Table.get_put_self _ _

/-- The backend codes of a heartbeat lose `ceph` and every other name. -/
theorem storageBackend_roundtrip_iff (storageBackend : String) :
    storageBackendFromI32 (asI32 (heartbeatStorageBackend storageBackend)) = storageBackend ↔
      storageBackend ∈ ["filesystem", "lvm", "zfs"] := by
  unfold heartbeatStorageBackend
  split_ifs with hlvm hzfs
  · subst hlvm; decide
  · subst hzfs; decide
  · rw [show storageBackendFromI32 (asI32 1) = "filesystem" by decide]
    simp only [List.mem_cons, List.not_mem_nil, or_false, hlvm, hzfs]
    exact eq_comm

theorem decoded_agrees_iff (hnode : node.Typed) (hreq : req.Typed) (hcpu : node.cpuUsed = req.cpuUsed)
    (hmemory : node.memoryUsed = req.memoryUsed) (hcert : node.certExpiryDays = req.certExpiryDays)
    (hluks : node.luksMethod = req.luksMethod) (labels : List String) (existing : Option NodeRow)
    (nodeId hostnameDefault approvalStatus : String) :
    NodeRow.Agrees { nodeFromBody (heartbeatBody node labels req) existing nodeId hostnameDefault node.status
        node.disableVxlan "" with approvalStatus := approvalStatus } node ↔
      node.storageBackend ∈ ["filesystem", "lvm", "zfs"] ∧ approvalStatus = node.approvalStatus ∧
      (existing.map (·.dcId)).getD "" = node.dcId := by
  have hi64 : ∀ key v, (heartbeatBody node labels req).get key = some (.number (.int v)) → fitsI64 v = true →
      (heartbeatBody node labels req).i64 key = some v := by
    intro key v hget hfits
    simp [Value.i64, hget, Value.asI64, hfits]
  have hcores := hi64 "cpuCores" _ rfl (fitsI64_of_fitsI32 hnode.cpuCores)
  have hbytes := hi64 "memoryBytes" _ rfl hnode.memoryBytes
  have hused := hi64 "cpuUsed" _ rfl (fitsI64_of_fitsI32 hreq.cpuUsed)
  have hmem := hi64 "memoryUsed" _ rfl hreq.memoryUsed
  have hdays := hi64 "certExpiryDays" _ rfl (fitsI64_of_fitsI32 hreq.certExpiryDays)
  have hbackend : (heartbeatBody node labels req).i64 "storageBackend" =
      some (heartbeatStorageBackend node.storageBackend) := by
    refine hi64 "storageBackend" _ rfl ?_
    unfold heartbeatStorageBackend
    split_ifs <;> decide
  constructor
  · intro h
    refine ⟨(storageBackend_roundtrip_iff _).mp ?_, h.approvalStatus, h.dcId⟩
    have hstored := h.storageBackend
    dsimp only [nodeFromBody] at hstored
    rw [hbackend] at hstored
    exact hstored
  · rintro ⟨hstored, happroval, hdc⟩
    refine ⟨rfl, rfl, ?_, ?_, ?_, ?_, rfl, ?_, rfl, happroval, ?_, ?_, hdc⟩ <;> dsimp only [nodeFromBody]
    · rw [hcores, Option.map_some, asI32_of_fits hnode.cpuCores]; rfl
    · rw [hbytes]; rfl
    · rw [hused, Option.map_some, asI32_of_fits hreq.cpuUsed, hcpu]; rfl
    · rw [hmem, hmemory]; rfl
    · rw [hbackend]
      exact (storageBackend_roundtrip_iff _).mpr hstored
    · exact hluks.symm
    · rw [hdays, Option.map_some, asI32_of_fits hreq.certExpiryDays, hcert]; rfl

/-- **Snapshot round trip.** A follower that materialises the event of a heartbeat has the row of the primary afterwards
exactly when the backend of the row has a code, and the follower's row, if there is one, has the same approval and data
centre; if there is none, the data centre is empty. -/
theorem heartbeat_snapshot_agrees_iff {d : DomainTables} {req : HeartbeatRequest} {node : NodeRow}
    (hget : d.nodes.get req.nodeId = some node) (hnode : node.Typed) (hreq : req.Typed) (now : String)
    (f : DomainTables) (resourceKey freshId : String) :
    ∃ after body, ((heartbeat now req).exec d).1 = .ok (some body) ∧
      ((heartbeat now req).exec d).2.nodes.get req.nodeId = some after ∧
      ((∃ row, ((applyNodeHeartbeat ⟨resourceKey, body, freshId⟩).exec f).2.nodes.get req.nodeId = some row ∧
          row.Agrees after) ↔
        node.storageBackend ∈ ["filesystem", "lvm", "zfs"] ∧
        (∀ old, f.nodes.get req.nodeId = some old → old.approvalStatus = node.approvalStatus) ∧
        ((f.nodes.get req.nodeId).map (·.dcId)).getD "" = node.dcId) := by
  obtain ⟨after, labels, status, hok, hafter, heq⟩ := exec_heartbeat hget now
  have hid : after.id = req.nodeId := Table.key_of_get hafter
  have hbody : (heartbeatBody after labels req).str "nodeId" = some req.nodeId := hid ▸ rfl
  have htyped : after.Typed := heq ▸ ⟨hnode.cpuCores, hnode.memoryBytes⟩
  refine ⟨after, heartbeatBody after labels req, hok, hafter, ?_⟩
  rw [nodes_applyNodeHeartbeat (c := ⟨resourceKey, heartbeatBody after labels req, freshId⟩) hbody]
  have hcols := decoded_agrees_iff htyped hreq (by rw [heq]; rfl) (by rw [heq]; rfl) (by rw [heq]; rfl)
    (by rw [heq]; rfl) labels (f.nodes.get req.nodeId) req.nodeId req.nodeId
  have hbackend : after.storageBackend = node.storageBackend := by rw [heq]; rfl
  have happroval : after.approvalStatus = node.approvalStatus := by rw [heq]; rfl
  have hdc : after.dcId = node.dcId := by rw [heq]; rfl
  rw [hbackend, happroval, hdc] at hcols
  cases hf : f.nodes.get req.nodeId with
  | none =>
    rw [hf] at hcols
    simp only [Option.some.injEq, exists_eq_left', reduceCtorEq, false_implies, implies_true, true_and]
    refine Iff.trans ?_ ((hcols after.approvalStatus).trans ?_)
    · rfl
    · simp [happroval]
  | some old =>
    rw [hf] at hcols
    simp only [Option.some.injEq, exists_eq_left', forall_eq']
    exact hcols old.approvalStatus

def primaryIn (dcId : String) : DomainTables :=
  { DomainTables.empty with nodes := Table.empty.put { drainedHost with storageBackend := "lvm", dcId := dcId } }

def usageReport : HeartbeatRequest := ⟨"node-a", 2, 4096, 300, "tpm2", "ok"⟩

theorem fresh_follower_gets_snapshot :
    ∃ after body, ((heartbeat "2026-01-01 00:00:00" usageReport).exec (primaryIn "")).1 = .ok (some body) ∧
      ((heartbeat "2026-01-01 00:00:00" usageReport).exec (primaryIn "")).2.nodes.get "node-a" = some after ∧
      ∃ row, ((applyNodeHeartbeat ⟨"node/node-a", body, ""⟩).exec .empty).2.nodes.get "node-a" = some row ∧
        row.Agrees after := by
  obtain ⟨after, body, hok, hafter, hiff⟩ := @heartbeat_snapshot_agrees_iff (primaryIn "") usageReport _
    rfl ⟨by decide, by decide⟩ ⟨by decide, by decide, by decide⟩ "2026-01-01 00:00:00" .empty "node/node-a" ""
  exact ⟨after, body, hok, hafter, hiff.mpr ⟨by decide, fun old hold => absurd hold (by simp [DomainTables.empty]), rfl⟩⟩

/-- The event does not carry the data centre, so a follower that learns of the host from it has none. -/
theorem snapshot_loses_data_centre :
    ∃ after body, ((heartbeat "2026-01-01 00:00:00" usageReport).exec (primaryIn "DC1")).1 = .ok (some body) ∧
      ((heartbeat "2026-01-01 00:00:00" usageReport).exec (primaryIn "DC1")).2.nodes.get "node-a" = some after ∧
      ¬ ∃ row, ((applyNodeHeartbeat ⟨"node/node-a", body, ""⟩).exec .empty).2.nodes.get "node-a" = some row ∧
        row.Agrees after := by
  refine ⟨_, _, rfl, rfl, ?_⟩
  rintro ⟨row, hrow, hagrees⟩
  obtain rfl := Option.some.inj hrow
  exact absurd hagrees.dcId (by decide)

end Kcore
