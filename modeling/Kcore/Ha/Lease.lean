import Mathlib.Data.Prod.Lex
import Mathlib.Data.String.Basic
import Kcore.Text

/-!
# The failover lease

Which controller may move VMs: the decision a controller takes on the lease row it holds, and the test by which
a replicated row replaces the local one. `leaseSupersedes` is the strict order of `(term, holder, expiry)`, a
linear order on lease views.
-/

namespace Kcore

def i64Min : Int := -2 ^ 63

def i64Max : Int := 2 ^ 63 - 1

/-- The nearest `i64`, what the saturating operations return. -/
def saturateI64 (n : Int) : Int := max i64Min (min n i64Max)

@[ext] structure LeaseView where
  holder : String
  expiresAtMs : Int
  term : Int
  deriving DecidableEq

inductive LeaseDecision where
  | act (term expiresAtMs : Int)
  | wait

def leaseExpiry (nowMs renewMs : Int) : Int := saturateI64 (nowMs + saturateI64 (max renewMs 1 * 3))

def decideLease (nowMs : Int) (selfId : String) (peersConfigured directHeartbeatFresh : Bool)
    (applyLagMs maxLagMs renewMs : Int) (current : Option LeaseView) : LeaseDecision :=
  let expires := leaseExpiry nowMs renewMs
  if !peersConfigured then .act ((current.map (·.term)).getD 1) expires
  else if !directHeartbeatFresh || applyLagMs > maxLagMs then .wait
  else match current with
    | some lease =>
      if lease.expiresAtMs > nowMs ∧ lease.holder ≠ selfId then .wait
      else if lease.expiresAtMs > nowMs ∧ lease.holder = selfId then .act lease.term expires
      else .act (saturateI64 (lease.term + 1)) expires
    | none => .act 1 expires

def leaseSupersedes (current : Option LeaseView) (incoming : LeaseView) : Bool :=
  match current with
  | none => true
  | some cur =>
    if incoming.term > cur.term then true
    else if incoming.term = cur.term ∧ incoming.holder > cur.holder then true
    else if incoming.term = cur.term ∧ incoming.holder = cur.holder ∧ incoming.expiresAtMs > cur.expiresAtMs then true
    else false

/-! ### The order of leases -/

namespace LeaseView

def sortKey (l : LeaseView) : ℤ ×ₗ String ×ₗ ℤ := toLex (l.term, toLex (l.holder, l.expiresAtMs))

theorem sortKey_injective : Function.Injective sortKey := by
  intro a b h
  simp only [sortKey, toLex_inj, Prod.mk.injEq] at h
  obtain ⟨ht, hh, he⟩ := h
  exact LeaseView.ext hh he ht

instance instLinearOrder : LinearOrder LeaseView := LinearOrder.lift' sortKey sortKey_injective

theorem lt_iff (a b : LeaseView) : a < b ↔ a.term < b.term ∨ a.term = b.term ∧
    (a.holder < b.holder ∨ a.holder = b.holder ∧ a.expiresAtMs < b.expiresAtMs) := by
  show a.sortKey < b.sortKey ↔ _
  simp only [sortKey, Prod.Lex.toLex_lt_toLex]

end LeaseView

theorem leaseSupersedes_some_iff (cur inc : LeaseView) : leaseSupersedes (some cur) inc = true ↔ cur < inc := by
  rw [LeaseView.lt_iff, leaseSupersedes]
  simp only [Bool.if_false_right, Bool.if_true_left, Bool.and_true, Bool.or_eq_true, decide_eq_true_eq, gt_iff_lt]
  constructor
  · rintro (h | ⟨ht, hh⟩ | ⟨ht, hh, he⟩)
    · exact .inl h
    · exact .inr ⟨ht.symm, .inl hh⟩
    · exact .inr ⟨ht.symm, .inr ⟨hh.symm, he⟩⟩
  · rintro (h | ⟨ht, hh | ⟨hh, he⟩⟩)
    · exact .inl h
    · exact .inr (.inl ⟨ht.symm, hh⟩)
    · exact .inr (.inr ⟨ht.symm, hh.symm, he⟩)

end Kcore
