import Kcore.Replication.Apply

/-!
# A pass over the failover lease

`maintain_failover_lease` reads the stored lease, decides whether to renew it or to claim the next term, stores
the new row and publishes it; `failover_may_act` tells whether a controller may move VMs. Between controllers
the lease travels as a `ha.lease` event, which `apply_ha_lease` stores if it is greater than the stored row.
-/

namespace Kcore

open Keyed

def failoverLease (db : Database) : Option ClusterLeaseRow := db.leases.get "failover"

def failoverMayAct (selfId : String) (nowMs : Int) (db : Database) : Bool :=
  match failoverLease db with
  | some lease => lease.holder = selfId && decide (lease.expiresAtMs > nowMs)
  | none => false

/-- What a pass reads besides the lease: whether a node was heard of lately, whether a poll of a peer has
finished, and the configuration. -/
structure LeasePass where
  directHeartbeatFresh : Bool
  leaseClaimOpen : Bool
  nodeTimeoutSecs : Int
  leaseRenewSecs : Int

def leaseToStore (selfId : String) (nowMs : Int) (pass : LeasePass) (current : Option ClusterLeaseRow) :
    Option ClusterLeaseRow :=
  match decideLease nowMs selfId true pass.directHeartbeatFresh 0 (saturateI64 (pass.nodeTimeoutSecs * 500))
    (saturateI64 (pass.leaseRenewSecs * 1000)) (current.map (·.view)) with
  | .wait => none
  | .act term expiresAtMs =>
    let claiming := match current with
      | some row => decide (term > row.term) || row.holder ≠ selfId
      | none => true
    if claiming && !pass.leaseClaimOpen then none else some ⟨"failover", selfId, expiresAtMs, term⟩

/-- `maintain_failover_lease`; the answer is the row that is published. -/
def maintainFailoverLease (selfId : String) (nowMs : Int) (pass : LeasePass) :
    Tx Database (Option ClusterLeaseRow) := do
  let current ← Tx.read failoverLease
  match leaseToStore selfId nowMs pass current with
  | none => return none
  | some row =>
    upsertClusterLease row
    return some row

def leaseBody (row : ClusterLeaseRow) : Value := .object
  [("name", .string row.name), ("holder", .string row.holder), ("expiresAtMs", .number (.int row.expiresAtMs)),
   ("term", .number (.int row.term))]

theorem leaseFromBody_leaseBody (row : ClusterLeaseRow) :
    leaseFromBody (leaseBody row) =
      if fitsI64 row.expiresAtMs = false then .error "ha.lease missing expiresAtMs"
      else if fitsI64 row.term = false then .error "ha.lease missing term"
      else .ok row := by
  have hexp : (leaseBody row).i64 "expiresAtMs" =
      if fitsI64 row.expiresAtMs then some row.expiresAtMs else none := rfl
  have hterm : (leaseBody row).i64 "term" = if fitsI64 row.term then some row.term else none := rfl
  have hholder : (leaseBody row).str "holder" = some row.holder := rfl
  have hname : (leaseBody row).str "name" = some row.name := rfl
  unfold leaseFromBody
  rw [hexp, hterm, hholder, hname]
  cases fitsI64 row.expiresAtMs <;> cases fitsI64 row.term <;> rfl

def readyPass : LeasePass := ⟨true, true, 30, 5⟩

/-! ### When a pass stores a row -/

theorem lt_leaseExpiry {nowMs : Int} (renewMs : Int) (h : nowMs < i64Max) : nowMs < leaseExpiry nowMs renewMs := by
  unfold leaseExpiry
  have hrenew : 1 ≤ saturateI64 (max renewMs 1 * 3) := by
    unfold saturateI64 i64Min i64Max
    omega
  generalize saturateI64 (max renewMs 1 * 3) = wait at hrenew
  unfold saturateI64 i64Min i64Max
  unfold i64Max at h
  omega

/-- The controller may claim: it has heard of a node, the lease it stores is absent or expired, and claims are
open, unless the term cannot grow. -/
def CanClaim (selfId : String) (nowMs : Int) (pass : LeasePass) (current : Option ClusterLeaseRow) : Prop :=
  pass.directHeartbeatFresh = true ∧ 0 ≤ pass.nodeTimeoutSecs ∧
  (∀ lease, current = some lease → lease.expiresAtMs ≤ nowMs) ∧
  (pass.leaseClaimOpen = true ∨ ∃ lease, current = some lease ∧ lease.holder = selfId ∧ i64Max ≤ lease.term)

section Pass

variable {selfId : String} {nowMs : Int} {pass : LeasePass}

theorem lag_ok_iff (secs : Int) : ¬ (0 > saturateI64 (secs * 500)) ↔ 0 ≤ secs := by
  unfold saturateI64 i64Min i64Max
  omega

theorem leaseToStore_of_not_fresh (current : Option ClusterLeaseRow)
    (h : ¬ (pass.directHeartbeatFresh = true ∧ 0 ≤ pass.nodeTimeoutSecs)) :
    leaseToStore selfId nowMs pass current = none := by
  have hwait : (!pass.directHeartbeatFresh || decide (0 > saturateI64 (pass.nodeTimeoutSecs * 500))) = true := by
    rw [← lag_ok_iff] at h
    cases hf : pass.directHeartbeatFresh with
    | false => rfl
    | true =>
      rw [hf] at h
      simpa using h
  unfold leaseToStore decideLease
  simp [hwait]

theorem leaseToStore_cases (selfId : String) (nowMs : Int) (current : Option ClusterLeaseRow)
    (hfresh : pass.directHeartbeatFresh = true)
    (hlag : 0 ≤ pass.nodeTimeoutSecs) :
    (∃ lease, current = some lease ∧ lease.expiresAtMs > nowMs ∧ lease.holder ≠ selfId ∧
      leaseToStore selfId nowMs pass current = none) ∨
    (∃ lease, current = some lease ∧ lease.expiresAtMs > nowMs ∧ lease.holder = selfId ∧
      leaseToStore selfId nowMs pass current =
        some ⟨"failover", selfId, leaseExpiry nowMs (saturateI64 (pass.leaseRenewSecs * 1000)), lease.term⟩) ∨
    (∃ lease, current = some lease ∧ lease.expiresAtMs ≤ nowMs ∧
      leaseToStore selfId nowMs pass current =
        if (saturateI64 (lease.term + 1) > lease.term ∨ lease.holder ≠ selfId) ∧ pass.leaseClaimOpen = false then none
        else some ⟨"failover", selfId, leaseExpiry nowMs (saturateI64 (pass.leaseRenewSecs * 1000)),
          saturateI64 (lease.term + 1)⟩) ∨
    (current = none ∧ leaseToStore selfId nowMs pass current =
      if pass.leaseClaimOpen = false then none
      else some ⟨"failover", selfId, leaseExpiry nowMs (saturateI64 (pass.leaseRenewSecs * 1000)), 1⟩) := by
  have hok : ¬ (0 > saturateI64 (pass.nodeTimeoutSecs * 500)) := (lag_ok_iff _).mpr hlag
  unfold leaseToStore decideLease
  cases current with
  | none =>
    refine .inr (.inr (.inr ⟨rfl, ?_⟩))
    simp [hfresh, hok]
  | some lease =>
    by_cases hlive : lease.expiresAtMs > nowMs
    · by_cases hself : lease.holder = selfId
      · refine .inr (.inl ⟨lease, rfl, hlive, hself, ?_⟩)
        simp [hfresh, hok, ClusterLeaseRow.view, hlive, hself]
      · refine .inl ⟨lease, rfl, hlive, hself, ?_⟩
        simp [hfresh, hok, ClusterLeaseRow.view, hlive, hself]
    · refine .inr (.inr (.inl ⟨lease, rfl, not_lt.mp hlive, ?_⟩))
      simp [hfresh, hok, ClusterLeaseRow.view, hlive]

theorem of_leaseToStore_eq_some {current : Option ClusterLeaseRow} {row : ClusterLeaseRow}
    (h : leaseToStore selfId nowMs pass current = some row) :
    row.name = "failover" ∧ row.holder = selfId ∧
      row.expiresAtMs = leaseExpiry nowMs (saturateI64 (pass.leaseRenewSecs * 1000)) := by
  by_cases hready : pass.directHeartbeatFresh = true ∧ 0 ≤ pass.nodeTimeoutSecs
  · rcases leaseToStore_cases selfId nowMs current hready.1 hready.2 with
      ⟨lease, -, -, -, hstore⟩ | ⟨lease, -, -, -, hstore⟩ | ⟨lease, -, -, hstore⟩ | ⟨-, hstore⟩
    · rw [hstore] at h
      exact absurd h (by simp)
    · rw [hstore] at h
      obtain rfl := Option.some.inj h
      exact ⟨rfl, rfl, rfl⟩
    · rw [hstore] at h
      split_ifs at h
      obtain rfl := Option.some.inj h
      exact ⟨rfl, rfl, rfl⟩
    · rw [hstore] at h
      split_ifs at h
      obtain rfl := Option.some.inj h
      exact ⟨rfl, rfl, rfl⟩
  · rw [leaseToStore_of_not_fresh _ hready] at h
    exact absurd h (by simp)

theorem not_canClaim_of_live {lease : ClusterLeaseRow} (hlive : lease.expiresAtMs > nowMs) :
    ¬ CanClaim selfId nowMs pass (some lease) := by
  intro hclaim
  have hexpired := hclaim.2.2.1 lease rfl
  omega

theorem canClaim_some_iff {lease : ClusterLeaseRow} (hfresh : pass.directHeartbeatFresh = true)
    (hlag : 0 ≤ pass.nodeTimeoutSecs) (hdead : lease.expiresAtMs ≤ nowMs) :
    CanClaim selfId nowMs pass (some lease) ↔
      ¬ ((saturateI64 (lease.term + 1) > lease.term ∨ lease.holder ≠ selfId) ∧ pass.leaseClaimOpen = false) := by
  have hgrows : saturateI64 (lease.term + 1) > lease.term ↔ ¬ i64Max ≤ lease.term := by
    unfold saturateI64 i64Min i64Max
    omega
  unfold CanClaim
  rw [hgrows]
  constructor
  · rintro ⟨-, -, -, hopen | ⟨lease', hcur, hself, hterm⟩⟩ ⟨hnew, hclosed⟩
    · exact absurd (hclosed.symm.trans hopen) Bool.false_ne_true
    · obtain rfl := Option.some.inj hcur
      exact hnew.elim (fun hlt => hlt hterm) fun hother => hother hself
  · intro hnot
    refine ⟨hfresh, hlag, fun lease' hcur => Option.some.inj hcur ▸ hdead, ?_⟩
    cases hopen : pass.leaseClaimOpen with
    | true => exact .inl rfl
    | false =>
      rw [hopen] at hnot
      push Not at hnot
      have hterm : i64Max ≤ lease.term := by
        by_contra hlt
        exact hnot (.inl (not_le.mp hlt)) rfl
      have hself : lease.holder = selfId := by
        by_contra hother
        exact hnot (.inr hother) rfl
      exact .inr ⟨lease, rfl, hself, hterm⟩

theorem canClaim_none_iff (hfresh : pass.directHeartbeatFresh = true) (hlag : 0 ≤ pass.nodeTimeoutSecs) :
    CanClaim selfId nowMs pass none ↔ ¬ pass.leaseClaimOpen = false := by
  unfold CanClaim
  simp [hfresh, hlag]

theorem isSome_leaseToStore_iff (selfId : String) (nowMs : Int) (pass : LeasePass)
    (current : Option ClusterLeaseRow) :
    (leaseToStore selfId nowMs pass current).isSome = true ↔
      (∃ lease, current = some lease ∧ lease.holder = selfId ∧ nowMs < lease.expiresAtMs ∧
        pass.directHeartbeatFresh = true ∧ 0 ≤ pass.nodeTimeoutSecs) ∨
      CanClaim selfId nowMs pass current := by
  by_cases hready : pass.directHeartbeatFresh = true ∧ 0 ≤ pass.nodeTimeoutSecs
  · obtain ⟨hfresh, hlag⟩ := hready
    rcases leaseToStore_cases selfId nowMs current hfresh hlag with
      ⟨lease, rfl, hlive, hother, hstore⟩ | ⟨lease, rfl, hlive, hself, hstore⟩ | ⟨lease, rfl, hdead, hstore⟩ |
      ⟨rfl, hstore⟩
    · rw [hstore]
      refine iff_of_false Bool.false_ne_true (not_or.mpr ⟨?_, not_canClaim_of_live hlive⟩)
      rintro ⟨lease', hcur, hself, -⟩
      exact hother (Option.some.inj hcur ▸ hself)
    · rw [hstore]
      exact iff_of_true rfl (.inl ⟨lease, rfl, hself, hlive, hfresh, hlag⟩)
    · rw [hstore, canClaim_some_iff hfresh hlag hdead]
      have hnot : ¬ ∃ lease', some lease = some lease' ∧ lease'.holder = selfId ∧ nowMs < lease'.expiresAtMs ∧
          pass.directHeartbeatFresh = true ∧ 0 ≤ pass.nodeTimeoutSecs := by
        rintro ⟨lease', hcur, -, hlive, -⟩
        obtain rfl := Option.some.inj hcur
        omega
      rw [or_iff_right hnot]
      split_ifs with hclosed
      · exact iff_of_false Bool.false_ne_true (not_not.mpr hclosed)
      · exact iff_of_true rfl hclosed
    · rw [hstore, canClaim_none_iff hfresh hlag]
      split_ifs with hclosed <;> simp [hclosed]
  · rw [leaseToStore_of_not_fresh _ hready]
    refine iff_of_false Bool.false_ne_true (not_or.mpr ⟨?_, fun hclaim => hready ⟨hclaim.1, hclaim.2.1⟩⟩)
    rintro ⟨lease, -, -, -, hfresh, hlag⟩
    exact hready ⟨hfresh, hlag⟩

end Pass

end Kcore
