import Mathlib.Logic.Function.Basic
import Kcore.Lib.Run
import Kcore.Ha.LeasePass

/-!
# One failover writer

Controllers with one clock run passes over their own copy of the failover lease, and the leases they publish
reach the others in any order, late, again, or never. `single_writer_iff` says in which runs no two controllers
may move VMs at the same time.
-/

namespace Kcore

open Keyed

structure LeaseCluster where
  nowMs : Int
  dbs : String → Database
  published : List ClusterLeaseRow

inductive LeaseAction where
  | tick (ms : Nat)
  | pass (selfId : String) (inputs : LeasePass)
  | deliver (selfId : String) (index : Nat)

namespace LeaseCluster

/-- One action of the cluster. A controller polls the outboxes of its peers, so it is never handed its own
lease. -/
def step (s : LeaseCluster) : LeaseAction → LeaseCluster
  | .tick ms => { s with nowMs := s.nowMs + ms }
  | .pass selfId inputs =>
    let result := (maintainFailoverLease selfId s.nowMs inputs).exec (s.dbs selfId)
    let row := (result.1.toOption.getD none).toList
    { s with dbs := Function.update s.dbs selfId result.2, published := s.published ++ row }
  | .deliver selfId index =>
    match s.published[index]? with
    | none => s
    | some row =>
      if row.holder = selfId then s
      else
        let db := ((applyHaLease .none (leaseBody row)).exec (s.dbs selfId)).2
        { s with dbs := Function.update s.dbs selfId db }

def MayAct (s : LeaseCluster) (selfId : String) : Prop := failoverMayAct selfId s.nowMs (s.dbs selfId) = true

instance (s : LeaseCluster) (selfId : String) : Decidable (s.MayAct selfId) := inferInstanceAs (Decidable (_ = true))

def SingleWriter (s : LeaseCluster) : Prop := ∀ c c', s.MayAct c → s.MayAct c' → c = c'

/-- A controller whose lease is absent or expired claims the next term only while no other controller may act.
-/
def ClaimsWhenFree (s : LeaseCluster) : LeaseAction → Prop
  | .pass selfId inputs => CanClaim selfId s.nowMs inputs (failoverLease (s.dbs selfId)) →
      ∀ other, other ≠ selfId → ¬ s.MayAct other
  | _ => True

end LeaseCluster

/-! ### One pass and one delivery -/

section Local

variable {selfId : String} {nowMs : Int} {inputs : LeasePass} {db : Database}

theorem exec_maintainFailoverLease :
    (maintainFailoverLease selfId nowMs inputs).exec db =
      match leaseToStore selfId nowMs inputs (failoverLease db) with
      | none => (.ok none, db)
      | some row => (.ok (some row), { db with leases := db.leases.put row }) := by
  rw [maintainFailoverLease, Tx.exec_read_bind]
  cases leaseToStore selfId nowMs inputs (failoverLease db) with
  | none => rfl
  | some row => rfl

theorem failoverMayAct_iff :
    failoverMayAct selfId nowMs db = true ↔
      ∃ lease, failoverLease db = some lease ∧ lease.holder = selfId ∧ nowMs < lease.expiresAtMs := by
  unfold failoverMayAct
  cases failoverLease db with
  | none => simp
  | some lease => simp

theorem failoverLease_put (row : ClusterLeaseRow) (hrow : row.name = "failover") :
    failoverLease { db with leases := db.leases.put row } = some row := by
  unfold failoverLease
  rw [Table.get_put, if_pos hrow]

theorem mayAct_pass_iff (hnow : nowMs < i64Max) :
    failoverMayAct selfId nowMs ((maintainFailoverLease selfId nowMs inputs).exec db).2 = true ↔
      failoverMayAct selfId nowMs db = true ∨ CanClaim selfId nowMs inputs (failoverLease db) := by
  rw [exec_maintainFailoverLease]
  have hsome := isSome_leaseToStore_iff selfId nowMs inputs (failoverLease db)
  cases hstore : leaseToStore selfId nowMs inputs (failoverLease db) with
  | none =>
    rw [hstore] at hsome
    refine ⟨.inl, fun h => h.elim id fun hclaim => ?_⟩
    exact absurd (hsome.mpr (.inr hclaim)) Bool.false_ne_true
  | some row =>
    -- The row is this controller's own and not yet expired.
    obtain ⟨hname, hself, hexpiry⟩ := of_leaseToStore_eq_some hstore
    have hlive := lt_leaseExpiry (saturateI64 (inputs.leaseRenewSecs * 1000)) hnow
    rw [← hexpiry] at hlive
    refine iff_of_true (failoverMayAct_iff.mpr ⟨row, failoverLease_put row hname, hself, hlive⟩) ?_
    rw [hstore] at hsome
    rcases hsome.mp rfl with ⟨lease, hcur, hheld, hunexpired, -⟩ | hclaim
    · exact .inl (failoverMayAct_iff.mpr ⟨lease, hcur, hheld, hunexpired⟩)
    · exact .inr hclaim

theorem mayAct_of_deliver {row : ClusterLeaseRow} (hother : row.holder ≠ selfId)
    (h : failoverMayAct selfId nowMs ((applyHaLease .none (leaseBody row)).exec db).2 = true) :
    failoverMayAct selfId nowMs db = true := by
  unfold applyHaLease at h
  cases hbody : leaseFromBody (leaseBody row) with
  | error e =>
    rw [hbody, Tx.exec_ofExcept_error_bind] at h
    exact h
  | ok incoming =>
    obtain rfl : row = incoming := by
      rw [leaseFromBody_leaseBody] at hbody
      split_ifs at hbody
      exact Except.ok.inj hbody
    rw [hbody, Tx.exec_ofExcept_ok_bind, call_none, Tx.exec_read_bind] at h
    split at h
    · exact h
    · rw [call_none, upsertClusterLease, Tx.exec_write, failoverMayAct_iff] at h
      obtain ⟨lease, hlease, hself, hlive⟩ := h
      unfold failoverLease at hlease
      rw [Table.get_put] at hlease
      split at hlease
      · obtain rfl := Option.some.inj hlease
        exact absurd hself hother
      · exact failoverMayAct_iff.mpr ⟨lease, hlease, hself, hlive⟩

end Local

/-! ### Steps and runs -/

namespace LeaseCluster

variable {s : LeaseCluster}

theorem mayAct_pass_other {selfId c : String} {inputs : LeasePass} (h : c ≠ selfId) :
    (s.step (.pass selfId inputs)).MayAct c ↔ s.MayAct c := by
  unfold MayAct step
  dsimp only
  rw [Function.update_of_ne h]

theorem mayAct_pass_self {selfId : String} {inputs : LeasePass} (hnow : s.nowMs < i64Max) :
    (s.step (.pass selfId inputs)).MayAct selfId ↔
      s.MayAct selfId ∨ CanClaim selfId s.nowMs inputs (failoverLease (s.dbs selfId)) := by
  unfold MayAct step
  dsimp only
  rw [Function.update_self]
  exact mayAct_pass_iff hnow

theorem mayAct_of_step_deliver {selfId c : String} {index : Nat}
    (h : (s.step (.deliver selfId index)).MayAct c) : s.MayAct c := by
  unfold MayAct step at h
  dsimp only at h
  split at h
  · exact h
  · split at h
    · exact h
    · rename_i row _ hother
      dsimp only at h
      by_cases hc : c = selfId
      · subst hc
        rw [Function.update_self] at h
        exact mayAct_of_deliver hother h
      · rw [Function.update_of_ne hc] at h
        exact h

theorem mayAct_of_step_tick {c : String} {ms : Nat} (h : (s.step (.tick ms)).MayAct c) : s.MayAct c := by
  obtain ⟨lease, hlease, hself, hlive⟩ := failoverMayAct_iff.mp h
  refine failoverMayAct_iff.mpr ⟨lease, hlease, hself, ?_⟩
  have hnow : s.nowMs ≤ s.nowMs + ms := by omega
  exact lt_of_le_of_lt hnow hlive

theorem singleWriter_step_iff (a : LeaseAction) (hnow : s.nowMs < i64Max) (hs : s.SingleWriter) :
    (s.step a).SingleWriter ↔ s.ClaimsWhenFree a := by
  cases a with
  | tick ms =>
    refine iff_of_true (fun c c' hc hc' => ?_) trivial
    exact hs c c' (mayAct_of_step_tick hc) (mayAct_of_step_tick hc')
  | deliver selfId index =>
    exact iff_of_true (fun c c' hc hc' => hs c c' (mayAct_of_step_deliver hc) (mayAct_of_step_deliver hc')) trivial
  | pass selfId inputs =>
    constructor
    · intro hsingle hclaim other hother hact
      have hself : (s.step (.pass selfId inputs)).MayAct selfId := (mayAct_pass_self hnow).mpr (.inr hclaim)
      exact hother (hsingle other selfId ((mayAct_pass_other hother).mpr hact) hself)
    · intro hfree
      -- Beside the controller of the pass no one may act that could not before.
      have hkey : ∀ c, c ≠ selfId → (s.step (.pass selfId inputs)).MayAct c →
          ¬ (s.step (.pass selfId inputs)).MayAct selfId := by
        intro c hc hact hself
        rw [mayAct_pass_other hc] at hact
        rcases (mayAct_pass_self hnow).mp hself with hbefore | hclaim
        · exact hc (hs c selfId hact hbefore)
        · exact hfree hclaim c hc hact
      intro c c' hact hact'
      by_cases hc : c = selfId
      · by_cases hc' : c' = selfId
        · rw [hc, hc']
        · exact absurd (hc ▸ hact) (hkey c' hc' hact')
      · by_cases hc' : c' = selfId
        · exact absurd (hc' ▸ hact') (hkey c hc hact)
        · exact hs c c' ((mayAct_pass_other hc).mp hact) ((mayAct_pass_other hc').mp hact')

end LeaseCluster

/-- **Single failover writer.** In a run from any state no two controllers may act at the same time exactly when
that is so in the first state and every claim is made while no other controller may act. -/
theorem single_writer_iff (s : LeaseCluster) (acts : List LeaseAction)
    (hclock : Machine.Along LeaseCluster.step (fun s => s.nowMs < i64Max) s acts) :
    Machine.Along LeaseCluster.step LeaseCluster.SingleWriter s acts ↔
      s.SingleWriter ∧ Machine.Each LeaseCluster.step LeaseCluster.ClaimsWhenFree s acts :=
  Machine.along_iff_each hclock fun _ a hnow hs => LeaseCluster.singleWriter_step_iff a hnow hs

def freshCluster : LeaseCluster := ⟨1000, fun _ => .empty, []⟩

/-- A lease that reaches the other controller before it looks at its own row keeps it waiting. -/
theorem delivered_lease_keeps_single_writer :
    Machine.Along LeaseCluster.step LeaseCluster.SingleWriter freshCluster
      [.pass "ctrl-a" readyPass, .deliver "ctrl-b" 0, .tick 5000, .pass "ctrl-b" readyPass] := by
  have hnone : ∀ c, ¬ freshCluster.MayAct c := fun c => Bool.false_ne_true
  refine (single_writer_iff _ _ ?_).mpr ⟨fun c _ hc => absurd hc (hnone c), ?_⟩
  · exact ⟨by decide, by decide, by decide, by decide, (by decide : (6000 : Int) < i64Max)⟩
  · refine ⟨fun _ other _ => hnone other, trivial, trivial, fun hclaim => ?_, trivial⟩
    have hexpired := hclaim.2.2.1 ⟨"failover", "ctrl-a", 16000, 1⟩ (by decide)
    exact absurd hexpired (by decide)

/-- Both controllers claim the first term before either lease is delivered, and both may act. -/
theorem concurrent_claims_make_two_writers :
    ¬ Machine.Along LeaseCluster.step LeaseCluster.SingleWriter freshCluster
      [.pass "ctrl-a" readyPass, .pass "ctrl-b" readyPass] := by
  intro h
  have hsingle := h.last
  exact absurd (hsingle "ctrl-a" "ctrl-b" (by decide) (by decide)) (by decide)

end Kcore
