import Kcore.Pki.NodeCrl

/-!
# Until when a CRL counts

A CRL says until when it may be used. A node keeps that time with the list and never reads it: a list counts for
`max_staleness` after it was fetched, whatever it says itself. So in the mode that refuses peers without fresh data, a
list that has run out still lets peers in, and fetching it once more makes it count anew.

`honoursValidity_iff` says what this comes to in one state, `hard_fail_honours_iff` what it comes to over a run.
-/

namespace Kcore.Pki

open Machine

namespace NodeSnapshot

/-- The list in use was fetched lately, and the time it gives itself has not passed. -/
def Current (policy : Policy) (n : NodeSnapshot) (now : Int) : Prop :=
  (∃ fetched ∈ n.refreshedAt, now - fetched ≤ policy.maxStaleness) ∧ ∀ next ∈ n.crlNextUpdate, now ≤ next

def AnsweredGood (policy : Policy) (n : NodeSnapshot) (serial : Nat) (now : Int) : Prop :=
  ∃ answered ∈ n.ocspGood.lookup serial, now - answered ≤ policy.maxStaleness

/-- A serial is let in only by a current list or by an answer of the responder. So a list that has run out lets nobody
in, however often it is fetched. -/
def HonoursValidity (policy : Policy) (n : NodeSnapshot) : Prop :=
  ∀ serial now, (n.check policy serial now).1.isAllowed = true → n.Current policy now ∨ n.AnsweredGood policy serial now

def Outlasts (policy : Policy) (n : NodeSnapshot) : Prop :=
  ∀ fetched ∈ n.refreshedAt, ∀ next ∈ n.crlNextUpdate, fetched + policy.maxStaleness ≤ next

end NodeSnapshot

open NodeSnapshot

section OneState

variable {policy : Policy} {n : NodeSnapshot} {serial : Nat} {now : Int}

theorem of_check_allowed (hmode : policy.failMode = .hardFail)
    (h : (n.check policy serial now).1.isAllowed = true) :
    (∃ fetched ∈ n.refreshedAt, now - fetched ≤ policy.maxStaleness) ∨ n.AnsweredGood policy serial now := by
  unfold NodeSnapshot.check decideRevoked at h
  by_cases hmem : serial ∈ n.serials
  · rw [if_pos hmem] at h
    cases h
  rw [if_neg hmem] at h
  by_cases hage : (n.refreshedAt.map (now - ·)).all (policy.maxStaleness < ·) = true
  · -- The list is too old, so the answer of the responder decides.
    right
    simp only [hage, hmode, if_true] at h
    split at h
    next hgood =>
      obtain ⟨answered, hanswered, hrecent⟩ := (Option.any_eq_true _ _).mp hgood
      exact ⟨answered, hanswered, of_decide_eq_true hrecent⟩
    · cases h
  · left
    cases hat : n.refreshedAt with
    | none => simp [hat] at hage
    | some fetched => exact ⟨fetched, rfl, by simpa [hat] using hage⟩

theorem exists_unknown_serial (n : NodeSnapshot) : ∃ serial, serial ∉ n.serials ∧ n.ocspGood.lookup serial = none := by
  let known := 0 :: (n.serials ++ n.ocspGood.map Prod.fst)
  let serial := known.max (List.cons_ne_nil _ _) + 1
  have hnew : serial ∉ known := by
    intro hmem
    have hle : serial ≤ known.max (List.cons_ne_nil _ _) := List.le_max_of_mem hmem
    omega
  refine ⟨serial, fun hmem => hnew (List.mem_cons_of_mem _ (List.mem_append_left _ hmem)), ?_⟩
  refine List.lookup_eq_none_iff.mpr fun entry hentry => ?_
  have hne : serial ≠ entry.1 := by
    intro heq
    exact hnew (heq ▸ List.mem_cons_of_mem _ (List.mem_append_right _ (List.mem_map_of_mem hentry)))
  simpa using hne

theorem honoursValidity_iff (hmode : policy.failMode = .hardFail) :
    n.HonoursValidity policy ↔ n.Outlasts policy := by
  constructor
  · intro hhonours fetched hfetched next hnext
    obtain ⟨serial, hserial, hunknown⟩ := exists_unknown_serial n
    have hallow : (n.check policy serial (fetched + policy.maxStaleness)).1 = .allow :=
      check_of_not_mem hserial hfetched
    rcases hhonours serial _ (by rw [hallow]; rfl) with hcurrent | ⟨answered, hanswered, -⟩
    · exact hcurrent.2 next hnext
    · rw [hunknown] at hanswered
      cases hanswered
  · intro hlasts serial now hallowed
    refine (of_check_allowed hmode hallowed).imp_left fun ⟨fetched, hfetched, hage⟩ => ?_
    refine ⟨⟨fetched, hfetched, hage⟩, fun next hnext => ?_⟩
    have := hlasts fetched hfetched next hnext
    omega

theorem crlNextUpdate_noteSeen : (n.noteSeen serial).crlNextUpdate = n.crlNextUpdate := by
  unfold NodeSnapshot.noteSeen
  split <;> rfl

theorem crlNextUpdate_foldl_askOcsp {t : Tick} (serials : List Nat) (n : NodeSnapshot) :
    (serials.foldl (askOcsp t) n).crlNextUpdate = n.crlNextUpdate := by
  induction serials generalizing n with
  | nil => rfl
  | cons serial serials ih =>
    rw [List.foldl_cons, ih]
    unfold askOcsp NodeSnapshot.applyOcsp
    split
    · split <;> rfl
    · rfl

end OneState

/-! ### Runs -/

def EndsLate (policy : Policy) : NodeEvent → Prop
  | .tick t =>
    match fetchCrl t.hasCa t.controllers with
    | .ok crl => ∀ next ∈ crl.nextUpdate, t.now + policy.maxStaleness ≤ next
    | .error _ => True
  | .check _ _ => True

theorem outlasts_step_iff {policy : Policy} {r : NodeRun} (e : NodeEvent) (h : r.node.Outlasts policy) :
    (r.step policy e).node.Outlasts policy ↔ EndsLate policy e := by
  cases e with
  | check serial now =>
    refine iff_of_true ?_ trivial
    have hat : ((r.node.check policy serial now).2).refreshedAt = r.node.refreshedAt := refreshedAt_noteSeen
    have hnext : ((r.node.check policy serial now).2).crlNextUpdate = r.node.crlNextUpdate := crlNextUpdate_noteSeen
    simpa only [Outlasts, NodeRun.step, hat, hnext] using h
  | tick t =>
    simp only [NodeRun.step, NodeSnapshot.tick, EndsLate]
    cases hfetch : fetchCrl t.hasCa t.controllers with
    | ok crl => simp [Outlasts, NodeSnapshot.apply]
    | error e =>
      -- Without a CRL only the responder is asked, which leaves the list as it is.
      refine iff_of_true ?_ trivial
      simpa only [Outlasts, (foldl_askOcsp (t := t) r.node.seen r.node).1, crlNextUpdate_foldl_askOcsp] using h

/-- A node that refuses peers without fresh data honours the validity of its lists just in the runs in which every list
outlasts the time for which it counts. -/
theorem hard_fail_honours_iff (maxStaleness : Int) (events : List NodeEvent) :
    Along (NodeRun.step ⟨.hardFail, maxStaleness⟩) (fun r => r.node.HonoursValidity ⟨.hardFail, maxStaleness⟩)
        ⟨.new, [], []⟩ events ↔
      Each (NodeRun.step ⟨.hardFail, maxStaleness⟩) (fun _ e => EndsLate ⟨.hardFail, maxStaleness⟩ e)
        ⟨.new, [], []⟩ events := by
  have htrivial : Along (NodeRun.step ⟨.hardFail, maxStaleness⟩) (fun _ => True) ⟨.new, [], []⟩ events :=
    along_of_each (G := fun _ _ => True) trivial (fun _ _ _ _ => trivial) (each_of_mem fun _ _ _ => trivial)
  rw [along_iff_each htrivial fun r e _ hr => ?_]
  · refine and_iff_right ((honoursValidity_iff rfl).mpr fun fetched hfetched => ?_)
    cases hfetched
  · rw [honoursValidity_iff rfl] at hr ⊢
    exact outlasts_step_iff e hr

/-- A list that runs out at 1100 is fetched at 1000 and again at 2000; it still counts at 5600. -/
theorem expired_list_admits :
    ¬ Along (NodeRun.step ⟨.hardFail, 3600⟩) (fun r => r.node.HonoursValidity ⟨.hardFail, 3600⟩) ⟨.new, [], []⟩
      [.tick ⟨1000, true, [("controller-a", .verified ⟨[7], 900, some 1100⟩)], none⟩,
        .tick ⟨2000, true, [("controller-a", .verified ⟨[7], 900, some 1100⟩)], none⟩] := by
  intro h
  rcases h.last 8 5600 (by decide) with hcurrent | ⟨answered, hanswered, -⟩
  · exact absurd (hcurrent.2 1100 rfl) (by decide)
  · cases hanswered

end Kcore.Pki
