import Kcore.Text

/-!
# Placement on the host

The node agent reads the guests of the booted configuration from `vm-placement` and decides which VM units are
masked and which may start. The controller names the guests still assigned to the host and the guests it has
moved away and still blocklists the host for. `mem_mask_iff` and `mem_unmask_iff` say for a guest that is not
assigned to the host which of the two a confirmed pass asks for.
-/

namespace Kcore

structure LocalVm where
  name : String
  backend : String

inductive HostAction where
  | mask (name : String)
  | unmask (name : String)
  | startTarget
  | stop (name : String)
  | restart (name : String)
  deriving DecidableEq

def parsePlacementLine (line : String) : Option LocalVm :=
  let line := trim line
  if line = "" || line.toList.head? = some '#' then none
  else match splitWhitespace line with
    | [] => none
    | name :: rest => some ⟨name, rest.head?.getD "filesystem"⟩

def parsePlacementFile (text : String) : List LocalVm := (lines text).filterMap parsePlacementLine

/-- What the first loop of `placement_actions` asks for a guest of the configuration. -/
def localAction (assigned : List String) (confirmed : Bool) (vm : LocalVm) : HostAction :=
  let owned := if confirmed then assigned.contains vm.name else vm.backend ≠ "ceph"
  if vm.backend = "ceph" && !owned then .mask vm.name else .unmask vm.name

def HostAction.handles (name : String) : HostAction → Bool
  | .mask have' => have' = name
  | .unmask have' => have' = name
  | _ => false

def maskFenced (assigned : List String) (actions : List HostAction) (fenced : String) : List HostAction :=
  let name := trim fenced
  if name = "" then actions
  else if !actions.any (·.handles name) && !assigned.contains name then actions ++ [.mask name]
  else actions

def placementActions (localVms : List LocalVm) (assigned fenceVms : List String) (confirmed timedOut : Bool) :
    List HostAction :=
  if !confirmed && !timedOut then []
  else
    let actions := localVms.map (localAction assigned confirmed)
    let actions := if confirmed then fenceVms.foldl (maskFenced assigned) actions else actions
    actions ++ [.startTarget]

example : placementActions (parsePlacementFile "web ceph\n# moved\ndb lvm\n") ["db"] ["old"] true false =
    [.mask "web", .unmask "db", .mask "old", .startTarget] := by decide

/-! ### The two loops -/

section Confirmed

variable {assigned : List String} {name : String}

theorem localAction_of_not_assigned (hn : name ∉ assigned) (vm : LocalVm) (hv : vm.name = name) :
    localAction assigned true vm = if vm.backend = "ceph" then .mask name else .unmask name := by
  subst hv
  simp [localAction, hn]

theorem localAction_eq_or (assigned : List String) (vm : LocalVm) :
    localAction assigned true vm = .mask vm.name ∨ localAction assigned true vm = .unmask vm.name := by
  rw [localAction, if_pos rfl]
  cases decide (vm.backend = "ceph") && !assigned.contains vm.name
  · exact .inr rfl
  · exact .inl rfl

theorem name_of_localAction {vm : LocalVm}
    (h : localAction assigned true vm = .mask name ∨ localAction assigned true vm = .unmask name) :
    vm.name = name := by
  rcases localAction_eq_or assigned vm with hact | hact <;> rw [hact] at h <;> simpa using h

theorem mem_map_localAction_iff {action : HostAction} (hact : action = .mask name ∨ action = .unmask name)
    (hn : name ∉ assigned) (localVms : List LocalVm) : action ∈ localVms.map (localAction assigned true) ↔
      ∃ vm ∈ localVms, vm.name = name ∧ (if vm.backend = "ceph" then .mask name else .unmask name) = action := by
  rw [List.mem_map]
  refine exists_congr fun vm => and_congr_right fun _ => ⟨fun h => ?_, fun ⟨hname, h⟩ => ?_⟩
  · have hname : vm.name = name := name_of_localAction (h ▸ hact)
    exact ⟨hname, (localAction_of_not_assigned hn vm hname).symm.trans h⟩
  · exact (localAction_of_not_assigned hn vm hname).trans h

theorem mask_mem_map_iff (hn : name ∉ assigned) (localVms : List LocalVm) :
    HostAction.mask name ∈ localVms.map (localAction assigned true) ↔
      ∃ vm ∈ localVms, vm.name = name ∧ vm.backend = "ceph" := by
  simp [mem_map_localAction_iff (.inl rfl) hn]

theorem unmask_mem_map_iff (hn : name ∉ assigned) (localVms : List LocalVm) :
    HostAction.unmask name ∈ localVms.map (localAction assigned true) ↔
      ∃ vm ∈ localVms, vm.name = name ∧ vm.backend ≠ "ceph" := by
  simp [mem_map_localAction_iff (.inr rfl) hn]

theorem any_handles_iff (actions : List HostAction) :
    actions.any (·.handles name) = true ↔ .mask name ∈ actions ∨ .unmask name ∈ actions := by
  rw [List.any_eq_true]
  constructor
  · rintro ⟨action, hmem, hact⟩
    cases action with
    | mask have' => exact .inl (of_decide_eq_true hact ▸ hmem)
    | unmask have' => exact .inr (of_decide_eq_true hact ▸ hmem)
    | _ => exact absurd hact Bool.false_ne_true
  · rintro (hmem | hmem)
    · exact ⟨_, hmem, decide_eq_true rfl⟩
    · exact ⟨_, hmem, decide_eq_true rfl⟩

theorem unmask_mem_maskFenced_iff (actions : List HostAction) (fenced : String) :
    .unmask name ∈ maskFenced assigned actions fenced ↔ .unmask name ∈ actions := by
  unfold maskFenced
  dsimp only
  split_ifs <;> simp

theorem mask_mem_maskFenced_iff (hn : name ∉ assigned) (actions : List HostAction) (fenced : String) :
    .mask name ∈ maskFenced assigned actions fenced ↔
      .mask name ∈ actions ∨ trim fenced = name ∧ name ≠ "" ∧ .unmask name ∉ actions := by
  unfold maskFenced
  dsimp only
  generalize trim fenced = fencedName
  by_cases hname : fencedName = name
  · subst hname
    by_cases hempty : fencedName = ""
    · simp [hempty]
    · cases h : actions.any (·.handles fencedName) with
      | true =>
        have hmem := (any_handles_iff actions).mp h
        simp only [hempty, if_false, Bool.not_true, Bool.false_and, Bool.false_eq_true]
        exact ⟨.inl, fun h' => h'.elim id fun h'' => hmem.resolve_right h''.2.2⟩
      | false =>
        have hnone : .unmask fencedName ∉ actions := fun hm => by
          rw [(any_handles_iff actions).mpr (.inr hm)] at h
          exact Bool.noConfusion h
        simp [hempty, hn, hnone]
  · split_ifs <;> simp [hname, Ne.symm hname]

theorem unmask_mem_foldl_iff (fenceVms : List String) (actions : List HostAction) :
    .unmask name ∈ fenceVms.foldl (maskFenced assigned) actions ↔ .unmask name ∈ actions := by
  induction fenceVms generalizing actions with
  | nil => rfl
  | cons fenced rest ih => rw [List.foldl_cons, ih, unmask_mem_maskFenced_iff]

theorem mask_mem_foldl_iff (hn : name ∉ assigned) (fenceVms : List String) (actions : List HostAction) :
    .mask name ∈ fenceVms.foldl (maskFenced assigned) actions ↔
      .mask name ∈ actions ∨ name ∈ fenceVms.map trim ∧ name ≠ "" ∧ .unmask name ∉ actions := by
  induction fenceVms generalizing actions with
  | nil => simp
  | cons fenced rest ih =>
    rw [List.foldl_cons, ih, unmask_mem_maskFenced_iff, mask_mem_maskFenced_iff hn, List.map_cons, List.mem_cons]
    constructor
    · rintro ((h | ⟨h, h'⟩) | ⟨h, h'⟩)
      · exact .inl h
      · exact .inr ⟨.inl h.symm, h'⟩
      · exact .inr ⟨.inr h, h'⟩
    · rintro (h | ⟨h | h, h'⟩)
      · exact .inl (.inl h)
      · exact .inl (.inr ⟨h.symm, h'⟩)
      · exact .inr ⟨h, h'⟩

/-! ### A confirmed pass -/

theorem mem_unmask_iff (hn : name ∉ assigned) (localVms : List LocalVm) (fenceVms : List String) (timedOut : Bool) :
    .unmask name ∈ placementActions localVms assigned fenceVms true timedOut ↔
      ∃ vm ∈ localVms, vm.name = name ∧ vm.backend ≠ "ceph" := by
  simp only [placementActions, Bool.not_true, Bool.false_and, Bool.false_eq_true, if_false, if_true, List.mem_append,
    List.mem_singleton, reduceCtorEq, or_false]
  rw [unmask_mem_foldl_iff, unmask_mem_map_iff hn]

theorem mem_mask_iff (hn : name ∉ assigned) (localVms : List LocalVm) (fenceVms : List String) (timedOut : Bool) :
    .mask name ∈ placementActions localVms assigned fenceVms true timedOut ↔
      (∃ vm ∈ localVms, vm.name = name ∧ vm.backend = "ceph") ∨
      (name ∈ fenceVms.map trim ∧ name ≠ "" ∧ ¬ ∃ vm ∈ localVms, vm.name = name ∧ vm.backend ≠ "ceph") := by
  simp only [placementActions, Bool.not_true, Bool.false_and, Bool.false_eq_true, if_false, if_true, List.mem_append,
    List.mem_singleton, reduceCtorEq, or_false]
  rw [mask_mem_foldl_iff hn, mask_mem_map_iff hn, unmask_mem_map_iff hn]

end Confirmed

end Kcore
