import Kcore.Lib.Table
import Kcore.Text

/-!
# The certificate inventory

The table `issued_certificates` of a controller. A serial stands for its hexadecimal text and a time is in seconds. The
column `status` is kept in two places: a row says whether it was replaced by a newer certificate, and the inventory has
the serials that are revoked, in the order in which they were. A row never stops being revoked.
-/

namespace Kcore.Pki

open Keyed

inductive CertStatus where
  | active
  | rotated
  | revoked
  deriving DecidableEq

inductive IdentityKind where
  | node
  | operator
  | controller
  | subCa
  | unknown
  deriving DecidableEq

structure CertRow where
  serial : Nat
  subjectCn : String
  identityKind : IdentityKind
  nodeId : String
  notAfter : Int
  rotated : Bool
  firstSeenAt : Option Int

structure Inventory where
  rows : Table CertRow.serial
  revoked : List Nat

namespace Inventory

def status (inv : Inventory) (r : CertRow) : CertStatus :=
  if r.serial ∈ inv.revoked then .revoked else if r.rotated then .rotated else .active

/-- `record_issued_certificate`: a serial that is stored keeps its status and the time it was first seen. -/
def recordIssued (inv : Inventory) (row : CertRow) : Inventory :=
  match inv.rows.get row.serial with
  | none => { inv with rows := inv.rows.put row }
  | some old => { inv with rows := inv.rows.put { row with rotated := old.rotated, firstSeenAt := old.firstSeenAt } }

def markSuperseded (inv : Inventory) (subjectCn : String) (keep : Nat) : Inventory :=
  let replaced := fun r => r.subjectCn = subjectCn ∧ r.serial ≠ keep ∧ inv.status r = .active
  ⟨inv.rows.update (fun r => replaced r) (fun r => { r with rotated := true }) fun _ => rfl, inv.revoked⟩

def recordSignedChain (inv : Inventory) (row : CertRow) : Inventory :=
  (inv.recordIssued { row with rotated := false, firstSeenAt := none }).markSuperseded row.subjectCn row.serial

def markSeen (inv : Inventory) (serials : List Nat) (now : Int) : Inventory :=
  let unseen := fun r => r.serial ∈ serials ∧ r.firstSeenAt = none
  ⟨inv.rows.update (fun r => unseen r) (fun r => { r with firstSeenAt := some now }) fun _ => rfl, inv.revoked⟩

/-- The certificate `old` was replaced by one that was first presented at `seenBefore` or earlier. -/
def replaced (inv : Inventory) (old : CertRow) (seenBefore : Int) : Bool :=
  inv.rows.any fun new => new.subjectCn = old.subjectCn ∧ inv.status new = .active ∧ new.serial ≠ old.serial ∧
    new.firstSeenAt.any (· ≤ seenBefore)

def listSuperseded (inv : Inventory) (kind : IdentityKind) (seenBefore now : Int) : List CertRow :=
  inv.rows.rows.filter fun old => inv.status old = .rotated ∧ old.identityKind = kind ∧ now < old.notAfter ∧
    inv.replaced old seenBefore

def findRevocable (inv : Inventory) (subjectCn nodeId : String) : List Nat :=
  (inv.rows.rows.filter fun r => inv.status r ≠ .revoked ∧
    ((subjectCn ≠ "" ∧ r.subjectCn = subjectCn) ∨ (nodeId ≠ "" ∧ r.nodeId = nodeId))).map CertRow.serial

/-- The update of `revoke_certificate_by_serial`. -/
def markRevoked (inv : Inventory) (serial : Nat) : Inventory :=
  if inv.rows.has serial ∧ serial ∉ inv.revoked then { inv with revoked := inv.revoked ++ [serial] } else inv

theorem revoked_markRevoked (inv : Inventory) (serial : Nat) : inv.revoked <+: (inv.markRevoked serial).revoked := by
  unfold markRevoked
  split
  · exact List.prefix_append _ _
  · exact List.prefix_rfl

theorem mem_revoked_markRevoked {inv : Inventory} {serial : Nat} {r : CertRow}
    (h : inv.rows.get serial = some r) : serial ∈ (inv.markRevoked serial).revoked := by
  have hhas : inv.rows.has serial = true := by simp [Table.has, h]
  unfold markRevoked
  by_cases hmem : serial ∈ inv.revoked
  · simp [hmem]
  · simp [hhas, hmem]

@[simp] theorem rows_markRevoked (inv : Inventory) (serial : Nat) : (inv.markRevoked serial).rows = inv.rows := by
  unfold markRevoked
  split <;> rfl

@[simp] theorem revoked_recordSignedChain (inv : Inventory) (row : CertRow) :
    (inv.recordSignedChain row).revoked = inv.revoked := by
  unfold recordSignedChain recordIssued markSuperseded
  dsimp only
  split <;> rfl

end Inventory

end Kcore.Pki
