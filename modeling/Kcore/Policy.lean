import Mathlib.Data.Prod.Lex
import Mathlib.Data.String.Basic
import Kcore.Text

/-!
# Arbitration policy

The rank by which controllers arbitrate between two operations on one resource. `compareRank` compares seven
components in turn; it is the comparison of a lexicographic product of linear orders, so it is itself one
(`ArbitrationRank.instLinearOrder`), and two ranks that compare equal are equal.
-/

namespace Kcore

inductive ValidityClass where
  | valid
  | invalid
  deriving DecidableEq

inductive SafetyClass where
  | safe
  | risky
  | unsafeClass
  deriving DecidableEq

inductive ReconcileTerminalState where
  | autoAccepted
  | autoRejected
  | autoCompensated
  deriving DecidableEq

def ReconcileTerminalState.debug : ReconcileTerminalState → String
  | autoAccepted => "AutoAccepted"
  | autoRejected => "AutoRejected"
  | autoCompensated => "AutoCompensated"

@[ext] structure ArbitrationRank where
  validity : ValidityClass
  safety : SafetyClass
  policyPriority : Int
  intentEpoch : Int
  logicalTsUnixMs : Int
  controllerId : String
  opId : String

def validityScore : ValidityClass → Int
  | .invalid => 0
  | .valid => 1

def safetyScore : SafetyClass → Int
  | .unsafeClass => 0
  | .risky => 1
  | .safe => 2

def compareRank (a b : ArbitrationRank) : Ordering :=
  (compare (validityScore a.validity) (validityScore b.validity)).then <|
  (compare (safetyScore a.safety) (safetyScore b.safety)).then <|
  (compare a.policyPriority b.policyPriority).then <|
  (compare a.intentEpoch b.intentEpoch).then <|
  (compare a.logicalTsUnixMs b.logicalTsUnixMs).then <|
  (compare a.controllerId b.controllerId).then <|
  compare a.opId b.opId

def loserTerminalState (validity : ValidityClass) (safety : SafetyClass) : ReconcileTerminalState :=
  if validity = .invalid then .autoRejected
  else if safety = .unsafeClass then .autoCompensated
  else .autoRejected

def parseValidityClass (value : Option String) : ValidityClass :=
  if toAsciiLowercase (trim (value.getD "valid")) = "invalid" then .invalid else .valid

def parseSafetyClass (value : Option String) : SafetyClass :=
  let text := toAsciiLowercase (trim (value.getD "safe"))
  if text = "unsafe" then .unsafeClass
  else if text = "risky" then .risky
  else .safe

theorem parseValidityClass_getD (value : Option String) :
    parseValidityClass (some (value.getD "valid")) = parseValidityClass value := by
  cases value <;> rfl

theorem parseSafetyClass_getD (value : Option String) :
    parseSafetyClass (some (value.getD "safe")) = parseSafetyClass value := by
  cases value <;> rfl

/-! ### The order of ranks -/

namespace ArbitrationRank

def sortKey (r : ArbitrationRank) : ℤ ×ₗ ℤ ×ₗ ℤ ×ₗ ℤ ×ₗ ℤ ×ₗ String ×ₗ String :=
  toLex (validityScore r.validity, toLex (safetyScore r.safety, toLex (r.policyPriority,
    toLex (r.intentEpoch, toLex (r.logicalTsUnixMs, toLex (r.controllerId, r.opId))))))

theorem validityScore_injective : Function.Injective validityScore := by
  intro a b h
  cases a <;> cases b <;> simp_all [validityScore]

theorem safetyScore_injective : Function.Injective safetyScore := by
  intro a b h
  cases a <;> cases b <;> simp_all [safetyScore]

theorem sortKey_injective : Function.Injective sortKey := by
  intro a b h
  simp only [sortKey, toLex_inj, Prod.mk.injEq] at h
  obtain ⟨hv, hs, hp, he, ht, hc, ho⟩ := h
  exact ArbitrationRank.ext (validityScore_injective hv) (safetyScore_injective hs) hp he ht hc ho

instance instLinearOrder : LinearOrder ArbitrationRank := LinearOrder.lift' sortKey sortKey_injective

theorem lt_iff_sortKey_lt (a b : ArbitrationRank) : a < b ↔ a.sortKey < b.sortKey := Iff.rfl

private theorem then_eq_gt_iff {α β : Type} [LinearOrder α] [LinearOrder β] (a b : α) (c d : β) (o : Ordering)
    (ho : o = .gt ↔ d < c) : (compare a b).then o = .gt ↔ toLex (b, d) < toLex (a, c) := by
  rw [Prod.Lex.toLex_lt_toLex, Ordering.then_eq_gt, compare_gt_iff_gt, compare_eq_iff_eq, ho]
  constructor
  · rintro (h | ⟨rfl, h⟩)
    · exact .inl h
    · exact .inr ⟨rfl, h⟩
  · rintro (h | ⟨rfl, h⟩)
    · exact .inl h
    · exact .inr ⟨rfl, h⟩

end ArbitrationRank

theorem compareRank_eq_gt_iff (a b : ArbitrationRank) : compareRank a b = .gt ↔ b < a := by
  rw [ArbitrationRank.lt_iff_sortKey_lt]
  unfold compareRank ArbitrationRank.sortKey
  iterate 6 apply ArbitrationRank.then_eq_gt_iff
  exact compare_gt_iff_gt

end Kcore
