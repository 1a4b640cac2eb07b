import Kcore.Lib.Run
import Mathlib.Tactic.SplitIfs

/-!
# Deletion of a Slurm cluster

A deletion that is not forced only sets the phase of the row to `deleting`; the reconciler then sends every member the
disabled fragment and removes the row. The phase is the one record of the request. A pass that fails writes `degraded`
or `failed` in its place, a key rotation writes `applying`, and a pass that began before the request ends by writing
its own phase; the next tick then takes the cluster for one that has to be applied.
-/

namespace Kcore.Slurm

open Machine

inductive Phase where
  | pending
  | applying
  | ready
  | degraded
  | failed
  | deleting
  deriving DecidableEq

/-- A row of `slurm_clusters`: the members of its spec in the order in which they are visited, and its status. -/
structure Row where
  members : List String
  generation : Int
  phase : Phase
  observedGeneration : Int

def Row.needsReconcile (row : Row) : Bool :=
  row.observedGeneration < row.generation || row.phase ∈ [Phase.pending, .applying, .degraded, .deleting]

inductive Stage where
  | preflight (todo : List String)
  | apply (todo : List String) (failures : Bool)
  | status
  | delete (todo : List String) (failures : Bool)

def Stage.deletes : Stage → Bool
  | .delete _ _ => true
  | _ => false

/-- A pass with the row that it has listed. `late` says that the deletion was requested when the pass began, and
`accepted` has the members that took the disabled fragment. -/
structure Pass where
  row : Row
  stage : Stage
  late : Bool
  accepted : List String

/-- `deletes` has the rows that running deletions have read. The deletion is `requested` from its success until the
cluster is applied again. `undone` says that a later pass has sent an enabled fragment, or that a pass has removed the
row although a registered member had not accepted the disabled one. -/
structure State where
  row : Option Row
  pass : Option Pass
  deletes : List Row
  requested : Bool
  undone : Bool

inductive Outcome where
  | ok
  | refused
  | error
  deriving DecidableEq

namespace State

def finish (s : State) (phase : Phase) (observedGeneration : Int) : State :=
  { s with row := s.row.map fun row => { row with phase, observedGeneration }, pass := none }

def goto (s : State) (p : Pass) (stage : Stage) : State := { s with pass := some { p with stage } }

section

variable (registered : String → Bool)

def stepApply (s : State) (p : Pass) (o : Outcome) : State :=
  match p.stage with
  | .preflight [] => s.goto p (.apply p.row.members false)
  | .preflight (n :: todo) => if registered n && o = .ok then s.goto p (.preflight todo) else s.finish .failed 0
  | .apply [] failures => if failures then s.finish .failed 0 else s.goto p .status
  | .apply (n :: todo) failures =>
    if registered n then
      let s := { s with undone := s.undone || (p.late && s.requested) }
      match o with
      | .ok => s.goto p (.apply todo failures)
      | .refused => s.goto p (.apply todo true)
      | .error => s.finish .failed 0
    else s.goto p (.apply todo true)
  | .status =>
    match o with
    | .ok => s.finish .ready p.row.generation
    | .refused => s.finish .degraded 0
    | .error => s.finish .failed 0
  | .delete _ _ => s

def stepDelete (s : State) (p : Pass) (todo : List String) (failures : Bool) (o : Outcome) : State :=
  match todo with
  | n :: todo =>
    if registered n then
      if o = .ok then { s with pass := some { p with stage := .delete todo failures, accepted := n :: p.accepted } }
      else s.goto p (.delete todo true)
    else s.goto p (.delete todo failures)
  | [] =>
    if failures then s.finish .degraded 0
    else if o = .error then s.finish .failed 0
    else
      let members := (s.row.map (·.members)).getD []
      let missed := members.any fun n => registered n && !p.accepted.contains n
      { s with row := none, pass := none, undone := s.undone || missed }

def advance (s : State) (o : Outcome) : State :=
  match s.pass with
  | none => s
  | some p =>
    match p.stage with
    | .delete todo failures => s.stepDelete registered p todo failures o
    | _ => s.stepApply registered p o

end

def list (s : State) : State :=
  match s.pass, s.row with
  | none, some row =>
    if row.needsReconcile then
      let stage := if row.phase = .deleting then .delete row.members false else .preflight row.members
      { s with pass := some ⟨row, stage, s.requested, []⟩ }
    else s
  | _, _ => s

end State

inductive Step where
  | list
  | advance (o : Outcome)
  | create (members : List String) (generation : Int)
  | rotateMungeKey
  | deleteRead
  | deleteWrite (i : Nat)
  | deleteForced

/-- A deletion writes back the row it has read, so its read and its write are two steps. What a `create` has read gives
it the generation, which is any here, and one of two phases that a pass does not tell apart: it is one step. -/
def State.step (registered : String → Bool) (s : State) : Step → State
  | .list => s.list
  | .advance o => s.advance registered o
  | .create members generation =>
    { s with
      row := some ⟨members, generation, if s.row.isSome then .applying else .pending, 0⟩
      requested := false }
  | .rotateMungeKey =>
    { s with
      row := s.row.map fun row =>
        { row with generation := row.generation + 1, phase := .applying, observedGeneration := 0 } }
  | .deleteRead => { s with deletes := s.row.toList ++ s.deletes }
  | .deleteWrite i =>
    match s.deletes[i]? with
    | none => s
    | some row =>
      { s with
        row := some { row with phase := .deleting, observedGeneration := 0 }
        deletes := s.deletes.eraseIdx i
        requested := true }
  | .deleteForced => { s with row := none, requested := false }

/-- Every call of a pass that deletes succeeds, the deletion is requested while no pass runs, the cluster is not
applied while a pass deletes it, and its key is not rotated after the request. -/
def Undisturbed (s : State) : Step → Prop
  | .advance o => (s.pass.any fun p => p.stage.deletes) = true → o = .ok
  | .create _ _ => (s.pass.any fun p => p.stage.deletes) = false
  | .rotateMungeKey => s.requested = false
  | .deleteWrite _ => s.pass = none
  | _ => True

/-! ### What a step keeps -/

section

variable {registered : String → Bool} {s : State}

/-- A pass that deletes has met no failure, works on the row that is stored, and has been to each member or has it to
do. -/
def Pass.Sound (registered : String → Bool) (row : Option Row) (p : Pass) : Prop :=
  ∀ todo failures, p.stage = .delete todo failures → failures = false ∧ (∀ r ∈ row, r.members = p.row.members) ∧
    ∀ n ∈ p.row.members, registered n = true → n ∈ p.accepted ∨ n ∈ todo

structure Inv (registered : String → Bool) (s : State) : Prop where
  kept : s.undone = false
  row : s.requested = true → ∀ r ∈ s.row, r.phase = .deleting
  pass : s.requested = true → ∀ p ∈ s.pass, p.stage.deletes = true
  sound : ∀ p ∈ s.pass, p.Sound registered s.row

private theorem sound_of_not_deletes {row : Option Row} {p : Pass} (h : p.stage.deletes = false) :
    p.Sound registered row := by
  intro todo failures hstage
  rw [hstage] at h
  exact nomatch h

/-- A pass that applies the cluster only ends or goes on, while no deletion is requested. -/
private theorem inv_finish {phase : Phase} {observed : Int} (hkept : s.undone = false) (hreq : s.requested = false) :
    Inv registered (s.finish phase observed) where
  kept := hkept
  row h := absurd (hreq.symm.trans h) (by decide)
  pass h := absurd (hreq.symm.trans h) (by decide)
  sound p hp := nomatch hp

private theorem inv_goto {p : Pass} {stage : Stage} (hkept : s.undone = false) (hreq : s.requested = false)
    (hstage : stage.deletes = false) : Inv registered (s.goto p stage) where
  kept := hkept
  row h := absurd (hreq.symm.trans h) (by decide)
  pass h := absurd (hreq.symm.trans h) (by decide)
  sound q hq := by
    cases hq
    exact sound_of_not_deletes hstage

private theorem inv_stepApply {p : Pass} {o : Outcome} (hs : Inv registered s) (hreq : s.requested = false) :
    Inv registered (s.stepApply registered p o) := by
  have hkept := hs.kept
  unfold State.stepApply
  split
  · exact inv_goto hkept hreq rfl
  · split_ifs
    · exact inv_goto hkept hreq rfl
    · exact inv_finish hkept hreq
  · split_ifs
    · exact inv_finish hkept hreq
    · exact inv_goto hkept hreq rfl
  · rename_i n todo failures hstage
    split_ifs
    · have hsent : (s.undone || (p.late && s.requested)) = false := by simp [hkept, hreq]
      cases o with
      | ok | refused => exact inv_goto hsent hreq rfl
      | error => exact inv_finish hsent hreq
    · exact inv_goto hkept hreq rfl
  · cases o with
    | ok | refused | error => exact inv_finish hkept hreq
  · exact hs

private theorem inv_stepDelete {p : Pass} {todo : List String} (hs : Inv registered s) (hpass : s.pass = some p)
    (hstage : p.stage = .delete todo false) : Inv registered (s.stepDelete registered p todo false .ok) := by
  obtain ⟨-, hrow, hmem⟩ := hs.sound p hpass todo false hstage
  have hnext : ∀ q : Pass, q.row = p.row → ∀ todo', q.stage = .delete todo' false →
      (∀ n ∈ p.row.members, registered n = true → n ∈ q.accepted ∨ n ∈ todo') →
      Inv registered { s with pass := some q } := by
    intro q hq todo' hq' hmem'
    refine ⟨hs.kept, hs.row, fun _ r hr => ?_, fun r hr todo'' f hr' => ?_⟩
    · cases hr
      rw [hq']
      rfl
    · cases hr
      rw [hq'] at hr'
      cases hr'
      rw [hq]
      exact ⟨rfl, hrow, hmem'⟩
  cases todo with
  | cons n todo =>
    simp only [State.stepDelete, if_true]
    split_ifs with hn
    · refine hnext _ rfl todo rfl fun m hm hreg => ?_
      rcases hmem m hm hreg with h | h
      · exact .inl (List.mem_cons_of_mem _ h)
      · rcases List.mem_cons.mp h with rfl | h
        · exact .inl List.mem_cons_self
        · exact .inr h
    · refine hnext _ rfl todo rfl fun m hm hreg => ?_
      rcases hmem m hm hreg with h | h
      · exact .inl h
      · rcases List.mem_cons.mp h with rfl | h
        · exact absurd hreg hn
        · exact .inr h
  | nil =>
    simp only [State.stepDelete, Bool.false_eq_true, if_false, reduceCtorEq]
    refine ⟨?_, fun _ r hr => (nomatch hr), fun _ q hq => (nomatch hq), fun q hq => (nomatch hq)⟩
    -- every registered member of the stored row has accepted
    simp only [hs.kept, Bool.false_or, List.any_eq_false, Bool.and_eq_true, not_and, Bool.not_eq_true',
      List.contains_eq_mem, decide_eq_false_iff_not, Decidable.not_not]
    intro n hn hreg
    cases hr : s.row with
    | none => simp [hr] at hn
    | some row =>
      have hn' : n ∈ p.row.members := by
        rw [← hrow row hr]
        simpa [hr] using hn
      exact (hmem n hn' hreg).resolve_right List.not_mem_nil

private theorem inv_advance {o : Outcome} (hs : Inv registered s)
    (ho : (s.pass.any fun p => p.stage.deletes) = true → o = .ok) : Inv registered (s.advance registered o) := by
  unfold State.advance
  cases hpass : s.pass with
  | none => exact hs
  | some p =>
    cases hstage : p.stage with
    | delete todo failures =>
      obtain ⟨rfl, -⟩ := hs.sound p hpass todo failures hstage
      obtain rfl : o = .ok := ho (by simp [hpass, hstage, Stage.deletes])
      simp only [hstage]
      exact inv_stepDelete hs hpass hstage
    | _ =>
      simp only [hstage]
      have hnot : p.stage.deletes = false := by rw [hstage]; rfl
      have hreq : s.requested = false := by
        rw [← Bool.not_eq_true]
        exact fun h => absurd (hnot.symm.trans (hs.pass h p hpass)) (by decide)
      exact inv_stepApply hs hreq

private theorem inv_list (hs : Inv registered s) : Inv registered s.list := by
  unfold State.list
  cases hpass : s.pass with
  | some p => exact hs
  | none =>
    cases hrow : s.row with
    | none => exact hs
    | some row =>
      have hdeleting : s.requested = true → ∀ r ∈ some row, r.phase = .deleting := hrow ▸ hs.row
      simp only
      split_ifs with hneeds hdel
      · refine ⟨hs.kept, hdeleting, fun _ p hp => ?_, fun p hp => ?_⟩
        · cases hp
          rfl
        · cases hp
          rintro todo f ⟨⟩
          exact ⟨rfl, fun r hr => by cases hr; rfl, fun n hn _ => .inr hn⟩
      · refine ⟨hs.kept, hdeleting, fun hreq => absurd (hdeleting hreq row rfl) hdel, fun p hp => ?_⟩
        cases hp
        exact sound_of_not_deletes rfl
      · exact hs

private theorem inv_step {a : Step} (hs : Inv registered s) (h : Undisturbed s a) :
    Inv registered (s.step registered a) := by
  cases a with
  | list => exact inv_list hs
  | advance o => exact inv_advance hs h
  | create members generation =>
    refine ⟨hs.kept, fun hreq => (nomatch hreq), fun hreq => (nomatch hreq), fun p hp => sound_of_not_deletes ?_⟩
    have hpass : s.pass = some p := hp
    simpa [Undisturbed, hpass] using h
  | rotateMungeKey =>
    have hreq : s.requested = false := h
    refine ⟨hs.kept, fun hr => absurd (hreq.symm.trans hr) (by decide), hs.pass, fun p hp todo f hstage => ?_⟩
    obtain ⟨hf, hrow, hmem⟩ := hs.sound p hp todo f hstage
    refine ⟨hf, fun r hr => ?_, hmem⟩
    obtain ⟨r', hr', rfl⟩ := Option.map_eq_some_iff.mp hr
    exact hrow r' hr'
  | deleteRead => exact ⟨hs.kept, hs.row, hs.pass, hs.sound⟩
  | deleteWrite i =>
    have hnone : s.pass = none := h
    simp only [State.step]
    cases s.deletes[i]? with
    | none => exact hs
    | some row =>
      refine ⟨hs.kept, fun _ r hr => ?_, fun _ p hp => ?_, fun p hp => ?_⟩
      · cases hr
        rfl
      · rw [hnone] at hp
        exact nomatch hp
      · rw [hnone] at hp
        exact nomatch hp
  | deleteForced =>
    refine ⟨hs.kept, fun hreq => (nomatch hreq), fun hreq => (nomatch hreq), fun p hp todo f hstage => ?_⟩
    obtain ⟨hf, -, hmem⟩ := hs.sound p hp todo f hstage
    exact ⟨hf, fun r hr => (nomatch hr), hmem⟩

end

/-- No requested deletion is undone in a run that does not disturb it, whatever row there is to begin with. -/
theorem deletion_kept (registered : String → Bool) (row : Option Row) (run : List Step)
    (h : Each (State.step registered) Undisturbed ⟨row, none, [], false, false⟩ run) :
    Along (State.step registered) (fun s => s.undone = false) ⟨row, none, [], false, false⟩ run := by
  have hstart : Inv registered ⟨row, none, [], false, false⟩ :=
    ⟨rfl, fun hreq => (nomatch hreq), fun hreq => (nomatch hreq), fun p hp => (nomatch hp)⟩
  exact (along_of_each hstart (fun _ _ => inv_step) h).mono fun _ => Inv.kept

/-! ### A member that refuses -/

def oneNode : State := ⟨some ⟨["n1"], 1, .ready, 1⟩, none, [], false, false⟩

def request : List Step := [.deleteRead, .deleteWrite 0]

/-- The member refuses the disabled fragment in the first pass; the second pass applies the cluster again. -/
theorem deletion_undone_after_refusal :
    ¬Along (State.step fun _ => true) (fun s => s.undone = false) oneNode
      (request ++ [.list, .advance .refused, .advance .ok] ++ [.list, .advance .ok, .advance .ok, .advance .ok]) := by
  intro h
  exact absurd h.last (by decide)

theorem deletion_kept_when_accepted :
    Along (State.step fun _ => true) (fun s => s.undone = false) oneNode
      (request ++ [.list, .advance .ok, .advance .ok]) := by
  refine deletion_kept (fun _ => true) (some ⟨["n1"], 1, .ready, 1⟩) _ ⟨trivial, rfl, trivial, ?_, ?_, trivial⟩
  · exact fun _ => rfl
  · exact fun _ => rfl

end Kcore.Slurm
