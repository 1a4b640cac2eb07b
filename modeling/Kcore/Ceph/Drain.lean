import Kcore.Ceph.ClusterSpec
import Kcore.Lib.Run
import Mathlib.Data.List.Perm.Subperm

/-!
# Draining a member

An accepted apply records the members that it drops as retired. A pass of the reconciler works on the spec that it has
read at its start: it configures the members, lists the retired nodes, drains and removes one after the other, and sets
the size of the pool last. Every replica needs a host of its own, so a drain ends only if the pool has no more replicas
than members stay.

The plan compares the new size with the members that are left, and not the size that the pool has. `Room` is what keeps
drains possible: while a node is to be drained, the pool fits on the members that stay, and a pass that has listed its
nodes before will not set a size that does not. It is kept if each apply that drops a member finds the pool, and the
pass that runs, small enough.
-/

namespace Kcore.Ceph.Drain

open Machine

/-- `todo` is what `retire_removed_members` has still to look at; before it, the members are configured. -/
structure Pass where
  spec : CephClusterSpec
  todo : Option (List String)

/-- `drain_member` marks OSDs out: the replicas of the pool, and how many members stay. -/
structure Drained where
  replicas : Option Int
  staying : Nat
  deriving DecidableEq

/-- The stored spec, `ceph_retired_nodes`, the size that was last set on the pool, and the pass that runs. -/
structure System where
  stored : CephClusterSpec
  retired : List String
  pool : Option Int
  pass : Option Pass
  drains : List Drained

/-- How far a pass gets with a node: the drain fails before anything is marked out, data is still moving, the teardown
or the removal of the monitor fails, or the node is gone. -/
inductive Progress where
  | unreached
  | moving
  | stuck
  | gone

inductive Action where
  | apply (new : CephClusterSpec) (health : Option String)
  | start
  | configured
  | retire (progress : Progress)
  | ensurePool (done : Bool)
  | fail

/-- `create_ceph_cluster` for a stored cluster accepts a spec that differs from the stored one. -/
def System.accepts (s : System) (new : CephClusterSpec) (health : Option String) : Bool :=
  new ≠ s.stored && (validateSpec new).isOk && (planMemberRemoval s.stored new ⟨health, s.retired⟩).issues.isEmpty &&
    s.stored.encryptOsds == new.encryptOsds

def System.retiredAfter (s : System) (new : CephClusterSpec) : List String :=
  (s.retired ++ (removedMembers s.stored new).filter fun id => decide (id ∉ s.retired)).filter fun id =>
    decide (id ∉ new.ids)

def System.clearRetired (s : System) (id : String) : System := { s with retired := s.retired.filter (· ≠ id) }

/-- One turn of the loop of `retire_removed_members`. -/
def System.retire (s : System) (spec : CephClusterSpec) (id : String) (rest : List String) (progress : Progress) :
    System :=
  if id ∈ spec.ids then { s.clearRetired id with pass := some ⟨spec, some rest⟩ }
  else
    let drained := s.drains ++ [⟨s.pool, spec.nodes.length⟩]
    match progress with
    | .unreached => { s with pass := none }
    | .moving | .stuck => { s with pass := none, drains := drained }
    | .gone => { s.clearRetired id with pass := some ⟨spec, some rest⟩, drains := drained }

def System.step (s : System) : Action → System
  | .apply new health => if s.accepts new health then { s with stored := new, retired := s.retiredAfter new } else s
  | .start => if s.pass = none then { s with pass := some ⟨s.stored, none⟩ } else s
  | .configured =>
    match s.pass with
    | some ⟨spec, none⟩ => { s with pass := some ⟨spec, some s.retired⟩ }
    | _ => s
  | .retire progress =>
    match s.pass with
    | some ⟨spec, some (id :: rest)⟩ => s.retire spec id rest progress
    | _ => s
  | .ensurePool done =>
    match s.pass with
    | some ⟨spec, some []⟩ => { s with pool := if done then some spec.size else s.pool, pass := none }
    | _ => s
  | .fail => { s with pass := none }

def Fits (replicas : Option Int) (hosts : Nat) : Prop := ∀ size ∈ replicas, size ≤ hosts

/-- Every drain could end. -/
def System.DrainsFit (s : System) : Prop := ∀ d ∈ s.drains, Fits d.replicas d.staying

/-- An accepted apply that drops a member finds a pool that fits on the others, and no pass that works on a larger size
or without the member. -/
def Roomy (s : System) : Action → Prop
  | .apply new health => s.accepts new health = true → removedMembers s.stored new ≠ [] →
    Fits s.pool new.nodes.length ∧
      ∀ p ∈ s.pass, p.spec.size ≤ new.nodes.length ∧ ∀ id ∈ removedMembers s.stored new, id ∈ p.spec.ids
  | _ => True

structure System.Idle (s : System) : Prop where
  valid : validateSpec s.stored = .ok ()
  retired : s.retired = []
  pass : s.pass = none
  drains : s.drains = []

structure Room (s : System) : Prop where
  ids : s.stored.ids.Nodup
  stored : ∀ id ∈ s.retired, id ∉ s.stored.ids → Fits s.pool s.stored.nodes.length
  unlisted : ∀ spec, s.pass = some ⟨spec, none⟩ → ∀ id ∈ s.retired, id ∉ spec.ids → Fits s.pool spec.nodes.length
  todo : ∀ spec l, s.pass = some ⟨spec, some l⟩ → ∀ id ∈ l, id ∉ spec.ids → Fits s.pool spec.nodes.length
  later : ∀ spec l, s.pass = some ⟨spec, some l⟩ → ∀ id ∈ s.retired, id ∉ s.stored.ids →
    id ∈ l ∨ spec.size ≤ s.stored.nodes.length
  drains : s.DrainsFit

/-! ### One step -/

section

variable {s : System}

variable {new spec : CephClusterSpec} {id : String}

private theorem mem_retiredAfter (h : id ∈ s.retiredAfter new) :
    (id ∈ s.retired ∨ id ∈ removedMembers s.stored new) ∧ id ∉ new.ids := by
  obtain ⟨hmem, hnew⟩ := List.mem_filter.mp h
  refine ⟨?_, of_decide_eq_true hnew⟩
  rcases List.mem_append.mp hmem with hmem | hmem
  · exact .inl hmem
  · exact .inr (List.mem_filter.mp hmem).1

private theorem validateSpec_of_accepts {health : Option String} (h : s.accepts new health = true) :
    validateSpec new = .ok () := by
  simp only [System.accepts, Bool.and_eq_true] at h
  cases hvalid : validateSpec new with
  | ok => rfl
  | error e =>
    rw [hvalid] at h
    exact absurd h.1.1.2 Bool.false_ne_true

private theorem length_le_of_removedMembers {old : CephClusterSpec} (hids : old.ids.Nodup)
    (h : removedMembers old new = []) : old.nodes.length ≤ new.nodes.length := by
  have hsub : old.ids ⊆ new.ids := by
    intro id hid
    by_contra hnew
    have : id ∈ removedMembers old new := mem_removedMembers.mpr ⟨hid, hnew⟩
    rw [h] at this
    cases this
  have hle := (hids.subperm hsub).length_le
  simpa only [CephClusterSpec.ids, List.length_map] using hle

private theorem Fits.mono {replicas : Option Int} {m n : Nat} (h : Fits replicas m) (hle : m ≤ n) :
    Fits replicas n := by
  intro size hsize
  have := h size hsize
  omega

private theorem Room.apply {health : Option String} (h : Room s) (haccepts : s.accepts new health = true)
    (hroomy : Roomy s (.apply new health)) : Room { s with stored := new, retired := s.retiredAfter new } := by
  have hids := (validateSpec_eq_ok (validateSpec_of_accepts haccepts)).2.1
  by_cases hremoved : removedMembers s.stored new = []
  · -- no member is dropped: the retired nodes were so before, and there are not fewer members
    have hle := length_le_of_removedMembers h.ids hremoved
    have hold : ∀ id ∈ s.retiredAfter new, id ∈ s.retired ∧ (id ∉ new.ids → id ∉ s.stored.ids) := by
      intro id hid
      obtain ⟨hmem, hnew⟩ := mem_retiredAfter hid
      rw [hremoved] at hmem
      refine ⟨hmem.resolve_right List.not_mem_nil, fun _ hstored => ?_⟩
      have : id ∈ removedMembers s.stored new := mem_removedMembers.mpr ⟨hstored, hnew⟩
      rw [hremoved] at this
      cases this
    refine ⟨hids, ?_, ?_, h.todo, ?_, h.drains⟩
    · intro id hid hnew
      exact (h.stored id (hold id hid).1 ((hold id hid).2 hnew)).mono hle
    · intro spec hpass id hid hspec
      exact h.unlisted spec hpass id (hold id hid).1 hspec
    · intro spec l hpass id hid hnew
      rcases h.later spec l hpass id (hold id hid).1 ((hold id hid).2 hnew) with hl | hsize
      · exact .inl hl
      · refine .inr ?_
        dsimp only
        omega
  · obtain ⟨hpool, hrunning⟩ := hroomy haccepts hremoved
    refine ⟨hids, fun _ _ _ => hpool, ?_, h.todo, ?_, h.drains⟩
    · intro spec hpass id hid hspec
      rcases (mem_retiredAfter hid).1 with hmem | hmem
      · exact h.unlisted spec hpass id hmem hspec
      · exact absurd ((hrunning _ hpass).2 id hmem) hspec
    · exact fun spec l hpass _ _ _ => .inr (hrunning _ hpass).1

private theorem Room.clear {rest : List String} {drains : List Drained} (h : Room s)
    (hpass : s.pass = some ⟨spec, some (id :: rest)⟩) (hdrains : ∀ d ∈ drains, Fits d.replicas d.staying) :
    Room { s.clearRetired id with pass := some ⟨spec, some rest⟩, drains } := by
  have hother : ∀ x ∈ (s.clearRetired id).retired, x ∈ s.retired ∧ x ≠ id := by
    intro x hx
    obtain ⟨hmem, hne⟩ := List.mem_filter.mp hx
    exact ⟨hmem, of_decide_eq_true hne⟩
  refine ⟨h.ids, ?_, fun _ hnone => ?_, ?_, ?_, hdrains⟩
  · exact fun x hx => h.stored x (hother x hx).1
  · cases hnone
  · intro spec' l hsome x hx
    cases hsome
    exact h.todo spec (id :: rest) hpass x (List.mem_cons_of_mem id hx)
  · intro spec' l hsome x hx hstored
    cases hsome
    rcases h.later spec (id :: rest) hpass x (hother x hx).1 hstored with hl | hsize
    · exact .inl ((List.mem_cons.mp hl).resolve_left (hother x hx).2)
    · exact .inr hsize

private theorem Room.stop {drains : List Drained} (h : Room s) (hdrains : ∀ d ∈ drains, Fits d.replicas d.staying) :
    Room { s with pass := none, drains } :=
  ⟨h.ids, h.stored, fun _ h => (nomatch h), fun _ _ h => (nomatch h), fun _ _ h => (nomatch h), hdrains⟩

private theorem Room.retire {rest : List String} (h : Room s) (hpass : s.pass = some ⟨spec, some (id :: rest)⟩)
    (progress : Progress) : Room (s.retire spec id rest progress) := by
  unfold System.retire
  by_cases hid : id ∈ spec.ids
  · rw [if_pos hid]
    exact h.clear hpass h.drains
  · rw [if_neg hid]
    have hfits := h.todo spec _ hpass id List.mem_cons_self hid
    have hdrained : ∀ d ∈ s.drains ++ [⟨s.pool, spec.nodes.length⟩], Fits d.replicas d.staying := by
      intro d hd
      rcases List.mem_append.mp hd with hd | hd
      · exact h.drains d hd
      · rw [List.mem_singleton.mp hd]
        exact hfits
    cases progress with
    | unreached => exact h.stop h.drains
    | moving | stuck => exact h.stop hdrained
    | gone => exact h.clear hpass hdrained

/-- The pool is set when every listed node is gone, so what is still retired was dropped since. -/
private theorem Room.ensurePool (h : Room s) (hpass : s.pass = some ⟨spec, some []⟩) (done : Bool) :
    Room { s with pool := if done then some spec.size else s.pool, pass := none } := by
  refine ⟨h.ids, ?_, fun _ h => (nomatch h), fun _ _ h => (nomatch h), fun _ _ h => (nomatch h), h.drains⟩
  intro id hid hstored
  cases done with
  | false => exact h.stored id hid hstored
  | true =>
    have hsize := (h.later spec [] hpass id hid hstored).resolve_left List.not_mem_nil
    rintro size ⟨⟩
    exact hsize

private theorem room_step (s : System) (act : Action) (h : Room s) (hroomy : Roomy s act) : Room (s.step act) := by
  cases act with
  | apply new health =>
    simp only [System.step]
    split
    · rename_i haccepts
      exact h.apply haccepts hroomy
    · exact h
  | start =>
    simp only [System.step]
    split
    · refine ⟨h.ids, h.stored, fun spec hsome => ?_, fun _ _ hsome => ?_, fun _ _ hsome => ?_, h.drains⟩
      · cases hsome
        exact h.stored
      · cases hsome
      · cases hsome
    · exact h
  | configured =>
    simp only [System.step]
    split
    · rename_i spec hpass
      refine ⟨h.ids, h.stored, fun _ hsome => ?_, fun _ l hsome => ?_, fun _ l hsome => ?_, h.drains⟩
      · cases hsome
      · cases hsome
        exact h.unlisted spec hpass
      · cases hsome
        exact fun id hid _ => .inl hid
    · exact h
  | retire progress =>
    simp only [System.step]
    split
    · rename_i hpass
      exact h.retire hpass progress
    · exact h
  | ensurePool done =>
    simp only [System.step]
    split
    · rename_i hpass
      exact h.ensurePool hpass done
    · exact h
  | fail => exact h.stop h.drains

end

/-- Every drain can end, in every run in which each accepted apply that drops a member finds room. -/
theorem drains_fit {s : System} (hs : s.Idle) {acts : List Action} (h : Each System.step Roomy s acts) :
    Along System.step System.DrainsFit s acts := by
  have hroom : Room s := by
    have hids := (validateSpec_eq_ok hs.valid).2.1
    refine ⟨hids, ?_, ?_, ?_, ?_, ?_⟩
    · simp [hs.retired]
    · simp [hs.pass]
    · simp [hs.pass]
    · simp [hs.pass]
    · simp [System.DrainsFit, hs.drains]
  exact (along_of_each hroom room_step h).mono fun _ hr => hr.drains

/-! ### A cluster of three -/

def host (id : String) : CephClusterNodeSpec := ⟨id, "10.0.0.1:6789", "10.1.0.1", "eth0", "eth1", "/dev/sdb", []⟩

def sized (size : Int) (ids : List String) : CephClusterSpec :=
  ⟨"f", "10.0.0.0/24", "10.1.0.0/24", size, 1, false, true, ids.map host⟩

def three (size : Int) : System := ⟨sized size ["a", "b", "c"], [], some size, none, []⟩

def drainPass : List Action := [.start, .configured, .retire .moving]

theorem drop_with_two_replicas_drains : Along System.step System.DrainsFit (three 2)
    (.apply (sized 2 ["a", "b"]) (some "HEALTH_OK") :: drainPass) := by
  have hroomy : Roomy (three 2) (.apply (sized 2 ["a", "b"]) (some "HEALTH_OK")) := by
    refine fun _ _ => ⟨?_, fun _ h => nomatch h⟩
    rintro size ⟨⟩
    decide
  exact drains_fit ⟨rfl, rfl, rfl, rfl⟩ ⟨hroomy, trivial, trivial, trivial, trivial⟩

/-- One apply lowers the size to two and drops a member: the drain runs with three replicas on two hosts. -/
theorem smaller_size_and_drop_cannot_drain : ¬(run System.step (three 3)
    (.apply (sized 2 ["a", "b"]) (some "HEALTH_OK") :: drainPass)).DrainsFit := by
  intro h
  exact absurd (h ⟨some 3, 2⟩ (by decide) 3 rfl) (by decide)

end Kcore.Ceph.Drain
