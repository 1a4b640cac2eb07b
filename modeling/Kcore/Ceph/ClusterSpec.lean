import Kcore.Lib.Checks
import Kcore.Text
import Mathlib.Data.List.Nodup

/-!
# The spec of a Ceph cluster

What `CreateCephCluster` asks of a spec, and of the members that it drops from the stored one.
-/

namespace Kcore.Ceph

open Checks

structure CephClusterNodeSpec where
  nodeId : String
  monAddr : String
  clusterAddr : String
  publicIface : String
  clusterIface : String
  osdDevice : String
  osdDevices : List String
  deriving DecidableEq

structure CephClusterSpec where
  fsid : String
  publicNetwork : String
  clusterNetwork : String
  size : Int
  minSize : Int
  forceWipe : Bool
  encryptOsds : Bool
  nodes : List CephClusterNodeSpec
  deriving DecidableEq

def CephClusterSpec.ids (spec : CephClusterSpec) : List String := spec.nodes.map (·.nodeId)

def osdDevices (node : CephClusterNodeSpec) : List String :=
  let primary := trim node.osdDevice
  (node.osdDevices.map trim).foldl (fun out device => if device ≠ "" ∧ device ∉ out then out ++ [device] else out)
    (if primary ≠ "" then [primary] else [])

/-- The loop of `validate_spec`, with the identifiers that were seen. -/
def validateNodes : List String → List CephClusterNodeSpec → Except String Unit
  | _, [] => .ok ()
  | seen, node :: rest => do
    check (trim node.nodeId ≠ "" ∧ trim node.nodeId ∉ seen) ("nodeId must be non-empty and unique: " ++ node.nodeId)
    check (osdDevices node ≠ []) ("osdDevice for " ++ node.nodeId ++ " is required")
    (osdDevices node).forM fun device =>
      check (startsWith device "/") ("osdDevice for " ++ node.nodeId ++ " must be absolute: " ++ device)
    check (trim node.publicIface ≠ "" ∧ trim node.clusterIface ≠ "")
      ("publicIface and clusterIface are required for " ++ node.nodeId)
    validateNodes (trim node.nodeId :: seen) rest

def validateSpec (spec : CephClusterSpec) : Except String Unit := do
  check (spec.nodes ≠ []) "spec.nodes must contain at least one node"
  check (trim spec.publicNetwork ≠ "" ∧ trim spec.clusterNetwork ≠ "") "publicNetwork and clusterNetwork are required"
  check (0 < spec.size ∧ 0 < spec.minSize ∧ spec.minSize ≤ spec.size)
    "size must be >= minSize and both must be positive"
  validateNodes [] spec.nodes

def removedMembers (old new : CephClusterSpec) : List String := old.ids.filter fun id => decide (id ∉ new.ids)

structure RemovalContext where
  healthStatus : Option String
  pendingRemovals : List String

structure RemovalPlan where
  removed : List String
  issues : List String
  warnings : List String

def planMemberRemoval (old new : CephClusterSpec) (ctx : RemovalContext) : RemovalPlan :=
  let removed := removedMembers old new
  if removed = [] then ⟨[], [], []⟩
  else
    let leaving := ", ".intercalate removed
    let remaining := new.nodes.length
    let pending := ctx.pendingRemovals.filter fun id => decide (id ∉ removed)
    { removed
      issues :=
        (if 1 < removed.length then
          ["remove one member per apply so each host drains before the next leaves; this apply removes " ++
            toString removed.length ++ ": " ++ leaving] else []) ++
        (if (remaining : Int) < new.size then
          ["removing " ++ leaving ++ " leaves " ++ toString remaining ++ " host(s) for size " ++ toString new.size ++
            ": every replica needs its own host, so lower size (and minSize) first or add a member"] else []) ++
        (match ctx.healthStatus with
          | some status => if status = "HEALTH_OK" then [] else
            ["cluster is " ++ status ++
              "; wait for HEALTH_OK so every placement group is fully replicated before a host leaves"]
          | none => ["could not read ceph health from a surviving member; refusing to remove a host blind"]) ++
        (if pending ≠ [] then
          ["removal of " ++ ", ".intercalate pending ++ " is still in progress; wait for it to finish"] else [])
      warnings :=
        (if remaining = 2 then
          ["2 monitors cannot survive losing either one (quorum needs a majority); " ++
            "plan to go back to 3+ members or down to 1"] else []) ++
        [leaving ++ " will be drained (OSDs marked out, wait for every PG to be active+clean), " ++
          "then its OSDs purged and its monitor removed"] }

/-! ### What is accepted -/

theorem validateNodes_eq_ok {nodes : List CephClusterNodeSpec} {seen : List String}
    (h : validateNodes seen nodes = .ok ()) : (nodes.map fun node => trim node.nodeId).Nodup ∧
      ∀ node ∈ nodes, trim node.nodeId ≠ "" ∧ trim node.nodeId ∉ seen := by
  induction nodes generalizing seen with
  | nil => exact ⟨List.nodup_nil, fun _ h => nomatch h⟩
  | cons node rest ih =>
    obtain ⟨⟨⟩, hid, h⟩ := bind_eq_ok.mp h
    obtain ⟨⟨⟩, -, h⟩ := bind_eq_ok.mp h
    obtain ⟨⟨⟩, -, h⟩ := bind_eq_ok.mp h
    obtain ⟨⟨⟩, -, h⟩ := bind_eq_ok.mp h
    obtain ⟨hnodup, hrest⟩ := ih h
    have hid := of_decide_eq_true (check_eq_ok.mp hid)
    refine ⟨?_, ?_⟩
    · refine List.nodup_cons.mpr ⟨fun hmem => ?_, hnodup⟩
      obtain ⟨other, hother, heq⟩ := List.mem_map.mp hmem
      exact (hrest other hother).2 (heq ▸ List.mem_cons_self)
    · intro other hother
      rcases List.mem_cons.mp hother with rfl | hother
      · exact hid
      · exact ⟨(hrest other hother).1, fun hseen => (hrest other hother).2 (List.mem_cons_of_mem _ hseen)⟩

/-- Accepted specs have members with different identifiers that are not blank. -/
theorem validateSpec_eq_ok {spec : CephClusterSpec} (h : validateSpec spec = .ok ()) :
    spec.nodes ≠ [] ∧ spec.ids.Nodup ∧ ∀ node ∈ spec.nodes, trim node.nodeId ≠ "" := by
  obtain ⟨⟨⟩, hnodes, h⟩ := bind_eq_ok.mp h
  obtain ⟨⟨⟩, -, h⟩ := bind_eq_ok.mp h
  obtain ⟨⟨⟩, -, h⟩ := bind_eq_ok.mp h
  obtain ⟨hnodup, hids⟩ := validateNodes_eq_ok h
  refine ⟨of_decide_eq_true (check_eq_ok.mp hnodes), ?_, fun node hnode => (hids node hnode).1⟩
  refine List.Nodup.of_map trim ?_
  rwa [CephClusterSpec.ids, List.map_map]

theorem mem_removedMembers {old new : CephClusterSpec} {id : String} :
    id ∈ removedMembers old new ↔ id ∈ old.ids ∧ id ∉ new.ids := by
  rw [removedMembers, List.mem_filter, decide_eq_true_eq]

end Kcore.Ceph
