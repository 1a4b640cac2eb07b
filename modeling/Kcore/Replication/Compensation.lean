import Kcore.Replication.Apply
import Kcore.Lib.Run

/-!
# The compensation executor

Each operation that loses a conflict leaves a job, and `processCompensationOnce` claims the job with the least id that
is pending or failed. A job that was claimed when the controller stopped stays `running`, which nothing claims again,
and a job that fails is the next to be claimed. `attempted_iff` says after which runs, and for which failing jobs, as
many calls as there are open jobs attempt all of them.
-/

namespace Kcore.Compensation

open Machine

abbrev Job := ReplicationCompensationJobRow

/-! ### One call -/

def claimable (job : Job) : Bool := job.status = "pending" || job.status = "failed"

def updateJob (id : Int) (f : Job → Job) (db : Database) : Database :=
  { db with jobs := db.jobs.map fun job => if job.id = id then f job else job }

def claimed (job : Job) : Job := { job with status := "running", attempts := job.attempts + 1 }

def claimNextCompensationJob : Tx Database (Option Job) := do
  match ← Tx.read fun db => db.jobs.find? claimable with
  | none => pure none
  | some job => do
    Tx.write (updateJob job.id claimed)
    pure (some (claimed job))

def completeCompensationJob (id : Int) : Tx Database Unit :=
  Tx.write (updateJob id fun job => { job with status := "completed" })

def failCompensationJob (id : Int) : Tx Database Unit :=
  Tx.write (updateJob id fun job => { job with status := "failed" })

/-- `outcome` is what undoing the operation and resolving the conflict come to; neither touches the jobs. -/
def processCompensationOnce (outcome : Job → Except String Unit) : Tx Database Bool := do
  match ← claimNextCompensationJob with
  | none => pure false
  | some job =>
    match outcome job with
    | .ok _ => do
      completeCompensationJob job.id
      pure true
    | .error e => do
      failCompensationJob job.id
      throw e

def attemptFirst (outcome : Job → Except String Unit) : List Job → List Job
  | [] => []
  | job :: jobs =>
    if claimable job then
      { job with
        status := if (outcome (claimed job)).isOk then "completed" else "failed", attempts := job.attempts + 1 }
        :: jobs
    else job :: attemptFirst outcome jobs

theorem map_find_claimable {jobs : List Job} {job : Job} (hnodup : (jobs.map (·.id)).Nodup)
    (hfind : jobs.find? claimable = some job) (outcome : Job → Except String Unit) :
    (jobs.map fun j => if j.id = job.id then
      { j with status := if (outcome (claimed job)).isOk then "completed" else "failed", attempts := j.attempts + 1 }
      else j) = attemptFirst outcome jobs := by
  induction jobs with
  | nil => cases hfind
  | cons j jobs ih =>
    rw [List.map_cons, List.nodup_cons] at hnodup
    by_cases hc : claimable j
    · obtain rfl : j = job := by simpa [hc] using hfind
      have hrest : ∀ k ∈ jobs, k.id ≠ j.id := fun k hk e => hnodup.1 (e ▸ List.mem_map_of_mem hk)
      rw [attemptFirst, if_pos hc, List.map_cons, if_pos rfl]
      congr 1
      exact (List.map_congr_left fun k hk => if_neg (hrest k hk)).trans (List.map_id' jobs)
    · rw [List.find?_cons_of_neg hc] at hfind
      have hne : j.id ≠ job.id := fun e => hnodup.1 (e ▸ List.mem_map_of_mem (List.mem_of_find?_eq_some hfind))
      rw [attemptFirst, if_neg hc, List.map_cons, if_neg hne, ih hnodup.2 hfind]

theorem exec_claim (db : Database) : claimNextCompensationJob.exec db =
    (.ok ((db.jobs.find? claimable).map claimed),
      (db.jobs.find? claimable).elim db fun job => updateJob job.id claimed db) := by
  rw [claimNextCompensationJob, Tx.exec_read_bind]
  cases db.jobs.find? claimable <;> rfl

theorem updateJob_claimed (job : Job) (status : String) (db : Database) :
    updateJob (claimed job).id (fun j => { j with status := status }) (updateJob job.id claimed db) =
      updateJob job.id (fun j => { j with status := status, attempts := j.attempts + 1 }) db := by
  simp only [updateJob, List.map_map]
  congr 1
  refine List.map_congr_left fun j _ => ?_
  by_cases h : j.id = job.id <;> simp [h, claimed]

theorem exec_process (outcome : Job → Except String Unit) {db : Database} (hnodup : (db.jobs.map (·.id)).Nodup) :
    ((processCompensationOnce outcome).exec db).2 = { db with jobs := attemptFirst outcome db.jobs } := by
  have hnone : ∀ jobs : List Job, jobs.find? claimable = none → attemptFirst outcome jobs = jobs := by
    intro jobs h
    induction jobs with
    | nil => rfl
    | cons job jobs ih =>
      rw [List.find?_eq_none] at h
      rw [attemptFirst, if_neg (h job List.mem_cons_self), ih]
      exact List.find?_eq_none.mpr fun k hk => h k (List.mem_cons_of_mem _ hk)
  cases hfind : db.jobs.find? claimable with
  | none =>
    rw [hnone _ hfind, processCompensationOnce, Tx.exec_bind, exec_claim, hfind]
    rfl
  | some job =>
    rw [← map_find_claimable hnodup hfind, processCompensationOnce, Tx.exec_bind, exec_claim, hfind]
    dsimp only [Option.map_some, Option.elim_some]
    cases ho : outcome (claimed job) with
    | ok _ =>
      rw [completeCompensationJob, Tx.exec_write_bind, Tx.exec_pure, updateJob_claimed]
      simp [Except.isOk, Except.toBool, updateJob]
    | error e =>
      rw [failCompensationJob, Tx.exec_write_bind, Tx.exec_throw, updateJob_claimed]
      simp [Except.isOk, Except.toBool, updateJob]

def calls (outcome : Job → Except String Unit) : Nat → Database → Database
  | 0, db => db
  | n + 1, db => calls outcome n ((processCompensationOnce outcome).exec db).2

def Open (job : Job) : Prop := job.status ≠ "completed"

instance (job : Job) : Decidable (Open job) := inferInstanceAs (Decidable (¬ _))

/-- As many calls as there are open jobs attempt each of them, where the attempts of a job always end in the same
way. -/
def AllAttempted (outcome : Int → Except String Unit) (db : Database) : Prop :=
  ∀ job ∈ db.jobs, Open job →
    ∃ later ∈ (calls (fun job => outcome job.id) (db.jobs.countP (Open ·)) db).jobs,
      later.id = job.id ∧ job.attempts < later.attempts

def FailingLast (outcome : Int → Except String Unit) (jobs : List Job) : Prop :=
  ∀ a ∈ jobs, Open a → (outcome a.id).isOk = false → ∀ b ∈ jobs, Open b → b.id ≤ a.id

/-! ### All open jobs -/

section Table

variable {outcome : Job → Except String Unit} {jobs : List Job}

theorem attemptFirst_ids (outcome : Job → Except String Unit) (jobs : List Job) :
    (attemptFirst outcome jobs).map (·.id) = jobs.map (·.id) := by
  induction jobs with
  | nil => rfl
  | cons job jobs ih =>
    unfold attemptFirst
    split <;> simp [ih]

theorem calls_eq {db : Database} (hnodup : (db.jobs.map (·.id)).Nodup) (n : Nat) :
    calls outcome n db = { db with jobs := (attemptFirst outcome)^[n] db.jobs } := by
  induction n generalizing db with
  | zero => rfl
  | succ n ih =>
    rw [calls, exec_process outcome hnodup, ih (by rwa [attemptFirst_ids]), Function.iterate_succ_apply]

theorem iterate_of_not_claimable {job : Job} (h : claimable job = false) (n : Nat) :
    (attemptFirst outcome)^[n] (job :: jobs) = job :: (attemptFirst outcome)^[n] jobs := by
  induction n generalizing jobs with
  | zero => rfl
  | succ n ih =>
    rw [Function.iterate_succ_apply, Function.iterate_succ_apply, ← ih, attemptFirst, if_neg (by simp [h])]

theorem iterate_of_ok {job : Job} (h : claimable job = true) (hok : (outcome (claimed job)).isOk = true) (n : Nat) :
    (attemptFirst outcome)^[n + 1] (job :: jobs) =
      { job with status := "completed", attempts := job.attempts + 1 } :: (attemptFirst outcome)^[n] jobs := by
  rw [Function.iterate_succ_apply, attemptFirst, if_pos h, if_pos hok]
  exact iterate_of_not_claimable rfl n

theorem iterate_of_failing {outcome : Int → Except String Unit} {job : Job} (h : claimable job = true)
    (hfail : (outcome job.id).isOk = false) (n : Nat) :
    (attemptFirst fun job => outcome job.id)^[n + 1] (job :: jobs) =
      { job with status := "failed", attempts := job.attempts + (n + 1) } :: jobs := by
  induction n with
  | zero => simp [attemptFirst, h, hfail, claimed]
  | succ n ih =>
    rw [Function.iterate_succ_apply', ih]
    simp only [attemptFirst, claimable, claimed, hfail]
    simp [Int.add_assoc]

def Attempted (job later : Job) : Prop := later.id = job.id ∧ (Open job → job.attempts < later.attempts)

theorem failingLast_cons {outcome : Int → Except String Unit} {job : Job} (hlt : ∀ b ∈ jobs, job.id < b.id) :
    FailingLast outcome (job :: jobs) ↔
      (Open job → (outcome job.id).isOk = false → ∀ b ∈ jobs, ¬ Open b) ∧ FailingLast outcome jobs := by
  constructor
  · intro h
    constructor
    · intro ho hf b hb hbo
      have hle := h job List.mem_cons_self ho hf b (List.mem_cons_of_mem _ hb) hbo
      have := hlt b hb
      omega
    · intro a ha hao hf b hb hbo
      exact h a (List.mem_cons_of_mem _ ha) hao hf b (List.mem_cons_of_mem _ hb) hbo
  · rintro ⟨hhead, hrest⟩ a ha hao hf b hb hbo
    rcases List.mem_cons.mp ha with rfl | hat
    · rcases List.mem_cons.mp hb with rfl | hbt
      · exact Int.le_refl _
      · exact absurd hbo (hhead hao hf b hbt)
    · rcases List.mem_cons.mp hb with rfl | hbt
      · exact Int.le_of_lt (hlt a hat)
      · exact hrest a hat hao hf b hbt hbo

theorem forall₂_attempted_iff {later : List Job} (hids : later.map (·.id) = jobs.map (·.id))
    (hnodup : (jobs.map (·.id)).Nodup) : List.Forall₂ Attempted jobs later ↔
      ∀ job ∈ jobs, Open job → ∃ l ∈ later, l.id = job.id ∧ job.attempts < l.attempts := by
  induction jobs generalizing later with
  | nil => simp_all
  | cons job jobs ih =>
    obtain ⟨l, later, rfl⟩ := List.exists_cons_of_ne_nil (by rintro rfl; simp at hids : later ≠ [])
    simp only [List.map_cons, List.cons.injEq] at hids
    rw [List.map_cons, List.nodup_cons] at hnodup
    rw [List.forall₂_cons, ih hids.2 hnodup.2, List.forall_mem_cons]
    refine and_congr ?_ ?_
    · have hout : ∀ k ∈ later, k.id ≠ job.id := by
        intro k hk e
        exact hnodup.1 (e ▸ hids.2 ▸ List.mem_map_of_mem hk)
      constructor
      · intro hatt ho
        exact ⟨l, List.mem_cons_self, hids.1, hatt.2 ho⟩
      · refine fun hex => ⟨hids.1, fun ho => ?_⟩
        obtain ⟨k, hk, hkid, hlt⟩ := hex ho
        rcases List.mem_cons.mp hk with rfl | hk
        · exact hlt
        · exact absurd hkid (hout k hk)
    · refine forall₂_congr fun j hj => imp_congr_right fun _ => ?_
      have hne : l.id ≠ j.id := by
        intro e
        exact hnodup.1 (hids.1 ▸ e ▸ List.mem_map_of_mem hj)
      simp [hne]

def statuses : List String := ["pending", "running", "failed", "completed"]

theorem running_of_open {job : Job} (hstatus : job.status ∈ statuses) (hc : claimable job = false) (hopen : Open job) :
    job.status = "running" := by
  simp only [statuses, List.mem_cons, List.not_mem_nil, or_false] at hstatus
  simp only [claimable, Bool.or_eq_false_iff, decide_eq_false_iff_not] at hc
  rcases hstatus with h | h | h | h
  · exact absurd h hc.1
  · exact h
  · exact absurd h hc.2
  · exact absurd h hopen

theorem attempted_table_iff {outcome : Int → Except String Unit} (hsorted : jobs.Pairwise (·.id < ·.id))
    (hstatus : ∀ job ∈ jobs, job.status ∈ statuses) :
    List.Forall₂ Attempted jobs ((attemptFirst fun job => outcome job.id)^[jobs.countP (Open ·)] jobs) ↔
      (∀ job ∈ jobs, job.status ≠ "running") ∧ FailingLast outcome jobs := by
  induction jobs with
  | nil => simp [FailingLast]
  | cons job jobs ih =>
    obtain ⟨hlt, hsorted⟩ := List.pairwise_cons.mp hsorted
    have ih := ih hsorted fun j hj => hstatus j (List.mem_cons_of_mem _ hj)
    rw [failingLast_cons hlt, List.forall_mem_cons]
    by_cases hc : claimable job = true
    · -- The job is claimed first: once if it succeeds, by every call if it fails.
      have hopen : Open job := by
        intro h
        simp [claimable, h] at hc
      have hrun : job.status ≠ "running" := by
        intro h
        simp [claimable, h] at hc
      rw [List.countP_cons_of_pos (by simpa using hopen)]
      cases hok : (outcome job.id).isOk with
      | true =>
        rw [iterate_of_ok hc hok, List.forall₂_cons, ih]
        simp [Attempted, hrun]
      | false =>
        rw [iterate_of_failing hc hok, List.forall₂_cons]
        have hsame : List.Forall₂ Attempted jobs jobs ↔ ∀ b ∈ jobs, ¬ Open b := by
          rw [List.forall₂_same]
          simp [Attempted]
        have hpos : Attempted job
            { job with status := "failed", attempts := job.attempts + (jobs.countP (Open ·) + 1) } :=
          ⟨rfl, fun _ => by dsimp only; omega⟩
        rw [hsame]
        constructor
        · rintro ⟨-, hclosed⟩
          refine ⟨⟨hrun, ?_⟩, fun _ _ => hclosed, fun a ha hao => absurd hao (hclosed a ha)⟩
          intro b hb hbr
          exact hclosed b hb (by simp [Open, hbr])
        · rintro ⟨-, hhead, -⟩
          exact ⟨hpos, hhead hopen rfl⟩
    · replace hc : claimable job = false := by simpa using hc
      rw [iterate_of_not_claimable hc, List.forall₂_cons]
      by_cases hopen : Open job
      · have hrun := running_of_open (hstatus job List.mem_cons_self) hc hopen
        simp [Attempted, hopen, hrun]
      · have hdone : job.status = "completed" := by simpa [Open] using hopen
        rw [List.countP_cons_of_neg (by simpa using hopen), ih]
        simp [Attempted, hopen, hdone]

end Table

/-! ### Runs -/

/-- How an attempt ends: the job is completed, or failed, or neither could be written. -/
inductive Ending where
  | completed
  | failed
  | unrecorded

inductive Act where
  | insert (conflictId : Int) (resourceKey loserOpId loserEventType : String) (loserBodyJson : Value)
  | claim
  | finish (ending : Ending)
  | restart

structure Executor where
  db : Database
  inside : Option Int

namespace Executor

def start : Executor := ⟨.empty, none⟩

def step (s : Executor) : Act → Executor
  | .insert conflictId resourceKey loserOpId loserEventType loserBodyJson =>
    { s with db := ((insertCompensationJob conflictId resourceKey loserOpId loserEventType loserBodyJson).exec s.db).2 }
  | .claim =>
    if s.inside.isSome then s
    else ⟨(claimNextCompensationJob.exec s.db).2, (s.db.jobs.find? claimable).map (·.id)⟩
  | .finish ending =>
    match s.inside, ending with
    | none, _ => s
    | some id, .completed => ⟨((completeCompensationJob id).exec s.db).2, none⟩
    | some id, .failed => ⟨((failCompensationJob id).exec s.db).2, none⟩
    | some _, .unrecorded => { s with inside := none }
  | .restart => { s with inside := none }

/-- A claimed job comes to its end in the table before the controller stops. -/
def Finishes (s : Executor) (act : Act) : Prop :=
  s.inside.isSome = true → act ≠ .restart ∧ act ≠ .finish .unrecorded

structure Inv (s : Executor) : Prop where
  sorted : s.db.jobs.Pairwise (·.id < ·.id)
  below : ∀ job ∈ s.db.jobs, job.id ≤ s.db.jobSeq
  status : ∀ job ∈ s.db.jobs, job.status ∈ statuses
  claimed : ∀ id, s.inside = some id → ∃ job ∈ s.db.jobs, job.id = id ∧ job.status = "running"

def NoneStranded (s : Executor) : Prop := ∀ job ∈ s.db.jobs, job.status = "running" → s.inside = some job.id

variable {s : Executor}

theorem Inv.nodup (h : s.Inv) : (s.db.jobs.map (·.id)).Nodup :=
  List.pairwise_map.mpr (h.sorted.imp fun hlt => Int.ne_of_lt hlt)

theorem Inv.eq_of_id (h : s.Inv) {a b : Job} (ha : a ∈ s.db.jobs) (hb : b ∈ s.db.jobs) (hid : a.id = b.id) : a = b :=
  List.inj_on_of_nodup_map h.nodup ha hb hid

theorem step_cases (s : Executor) (act : Act) :
    s.step act = s ∧ s.Finishes act ∨
    (∃ job : Job, job.id = s.db.jobSeq + 1 ∧ job.status = "pending" ∧ s.Finishes act ∧
      s.step act = { s with db := { s.db with jobs := s.db.jobs ++ [job], jobSeq := job.id } }) ∨
    (∃ job ∈ s.db.jobs, claimable job = true ∧ s.inside = none ∧ s.Finishes act ∧
      s.step act = ⟨updateJob job.id Compensation.claimed s.db, some job.id⟩) ∨
    (∃ id status, (status = "completed" ∨ status = "failed") ∧ s.inside = some id ∧ s.Finishes act ∧
      s.step act = ⟨updateJob id (fun job => { job with status := status }) s.db, none⟩) ∨
    (∃ id, s.inside = some id ∧ ¬ s.Finishes act ∧ s.step act = { s with inside := none }) := by
  obtain ⟨db, inside⟩ := s
  cases act with
  | insert => exact Or.inr (Or.inl ⟨_, rfl, rfl, fun _ => ⟨nofun, nofun⟩, rfl⟩)
  | claim =>
    cases inside with
    | some id => exact Or.inl ⟨rfl, fun _ => ⟨nofun, nofun⟩⟩
    | none =>
      have hstep : step ⟨db, none⟩ .claim =
          ⟨(claimNextCompensationJob.exec db).2, (db.jobs.find? claimable).map (·.id)⟩ :=
        rfl
      rw [hstep, exec_claim]
      cases hfind : db.jobs.find? claimable with
      | none => exact Or.inl ⟨rfl, fun _ => ⟨nofun, nofun⟩⟩
      | some job =>
        refine Or.inr (Or.inr (Or.inl ⟨job, List.mem_of_find?_eq_some hfind, List.find?_some hfind, rfl, ?_, rfl⟩))
        exact fun _ => ⟨nofun, nofun⟩
  | finish ending =>
    cases inside with
    | none => exact Or.inl ⟨rfl, nofun⟩
    | some id =>
      cases ending with
      | completed => exact Or.inr (Or.inr (Or.inr (Or.inl ⟨id, _, Or.inl rfl, rfl, fun _ => ⟨nofun, nofun⟩, rfl⟩)))
      | failed => exact Or.inr (Or.inr (Or.inr (Or.inl ⟨id, _, Or.inr rfl, rfl, fun _ => ⟨nofun, nofun⟩, rfl⟩)))
      | unrecorded => exact Or.inr (Or.inr (Or.inr (Or.inr ⟨id, rfl, fun h => (h rfl).2 rfl, rfl⟩)))
  | restart =>
    cases inside with
    | none => exact Or.inl ⟨rfl, nofun⟩
    | some id => exact Or.inr (Or.inr (Or.inr (Or.inr ⟨id, rfl, fun h => (h rfl).1 rfl, rfl⟩)))

theorem mem_updateJob {id : Int} {f : Job → Job} {db : Database} {job : Job} :
    job ∈ (updateJob id f db).jobs ↔ (∃ k ∈ db.jobs, k.id = id ∧ f k = job) ∨ job ∈ db.jobs ∧ job.id ≠ id := by
  simp only [updateJob, List.mem_map]
  constructor
  · rintro ⟨k, hk, rfl⟩
    by_cases h : k.id = id
    · exact Or.inl ⟨k, hk, h, by rw [if_pos h]⟩
    · exact Or.inr ⟨by rwa [if_neg h], by rwa [if_neg h]⟩
  · rintro (⟨k, hk, h, rfl⟩ | ⟨hk, h⟩)
    · exact ⟨k, hk, if_pos h⟩
    · exact ⟨job, hk, if_neg h⟩

theorem Inv.update (h : s.Inv) (id : Int) (f : Job → Job) (hid : ∀ job, (f job).id = job.id)
    (hstatus : ∀ job, (f job).status ∈ statuses) {inside : Option Int}
    (hinside : ∀ i, inside = some i → ∃ job ∈ (updateJob id f s.db).jobs, job.id = i ∧ job.status = "running") :
    Inv ⟨updateJob id f s.db, inside⟩ where
  sorted := by
    have hsame : ∀ job : Job, (if job.id = id then f job else job).id = job.id := by
      intro job
      split
      · exact hid job
      · rfl
    refine List.pairwise_map.mpr (h.sorted.imp fun {a b} hlt => ?_)
    rwa [hsame, hsame]
  below := by
    intro job hjob
    rcases mem_updateJob.mp hjob with ⟨k, hk, -, rfl⟩ | ⟨hk, -⟩
    · rw [hid]
      exact h.below k hk
    · exact h.below job hk
  status := by
    intro job hjob
    rcases mem_updateJob.mp hjob with ⟨k, hk, -, rfl⟩ | ⟨hk, -⟩
    · exact hstatus k
    · exact h.status job hk
  claimed := hinside

theorem Inv.step (h : s.Inv) (act : Act) : (s.step act).Inv := by
  rcases step_cases s act with ⟨heq, -⟩ | ⟨job, hid, hpend, -, heq⟩ | ⟨job, hjob, -, -, -, heq⟩ |
    ⟨id, status, hst, -, -, heq⟩ | ⟨id, -, -, heq⟩ <;> rw [heq]
  · exact h
  · refine ⟨?_, ?_, ?_, ?_⟩
    · refine List.pairwise_append.mpr ⟨h.sorted, List.pairwise_singleton _ _, ?_⟩
      intro a ha b hb
      obtain rfl := List.mem_singleton.mp hb
      have := h.below a ha
      omega
    · intro a ha
      rcases List.mem_append.mp ha with ha | ha
      · have := h.below a ha
        dsimp only
        omega
      · obtain rfl := List.mem_singleton.mp ha
        exact Int.le_refl _
    · intro a ha
      rcases List.mem_append.mp ha with ha | ha
      · exact h.status a ha
      · obtain rfl := List.mem_singleton.mp ha
        simp [hpend, statuses]
    · intro id hin
      obtain ⟨a, ha, hrun⟩ := h.claimed id hin
      exact ⟨a, List.mem_append_left _ ha, hrun⟩
  · refine h.update job.id Compensation.claimed (fun _ => rfl) (fun _ => by simp [Compensation.claimed, statuses]) ?_
    rintro i hi
    obtain rfl := Option.some.inj hi
    exact ⟨_, mem_updateJob.mpr (Or.inl ⟨job, hjob, rfl, rfl⟩), rfl, rfl⟩
  · refine h.update id (fun job => { job with status := status }) (fun _ => rfl) ?_ nofun
    rcases hst with rfl | rfl <;> simp [statuses]
  · exact ⟨h.sorted, h.below, h.status, nofun⟩

theorem noneStranded_step (h : s.Inv) (hnone : s.NoneStranded) (act : Act) :
    (s.step act).NoneStranded ↔ s.Finishes act := by
  rcases step_cases s act with ⟨heq, hf⟩ | ⟨job, -, hpend, hf, heq⟩ | ⟨job, hjob, hc, hin, hf, heq⟩ |
    ⟨id, status, hst, hin, hf, heq⟩ | ⟨id, hin, hf, heq⟩ <;> rw [heq]
  · exact iff_of_true hnone hf
  · refine iff_of_true ?_ hf
    intro a ha hrun
    rcases List.mem_append.mp ha with ha | ha
    · exact hnone a ha hrun
    · obtain rfl := List.mem_singleton.mp ha
      exact absurd (hpend.symm.trans hrun) (by decide)
  · refine iff_of_true ?_ hf
    intro a ha hrun
    rcases mem_updateJob.mp ha with ⟨k, -, hk, rfl⟩ | ⟨hk, -⟩
    · exact congrArg some hk.symm
    · exact absurd (hin.symm.trans (hnone a hk hrun)) nofun
  · refine iff_of_true ?_ hf
    intro a ha hrun
    rcases mem_updateJob.mp ha with ⟨k, -, -, rfl⟩ | ⟨hk, hne⟩
    · rcases hst with rfl | rfl <;> exact absurd hrun (by simp)
    · exact absurd (Option.some.inj (hin.symm.trans (hnone a hk hrun))).symm hne
  · refine iff_of_false ?_ hf
    intro hcon
    obtain ⟨a, ha, -, hrun⟩ := h.claimed id hin
    exact absurd (hcon a ha hrun) nofun

theorem stranded_step (h : s.Inv) (act : Act) (hnone : (s.step act).NoneStranded) : s.NoneStranded := by
  intro a ha hrun
  rcases step_cases s act with ⟨heq, -⟩ | ⟨job, -, -, -, heq⟩ | ⟨job, hjob, hc, hin, -, heq⟩ |
    ⟨id, status, -, hin, -, heq⟩ | ⟨id, -, -, heq⟩ <;> rw [heq] at hnone
  · exact hnone a ha hrun
  · exact hnone a (List.mem_append_left _ ha) hrun
  · have hne : a.id ≠ job.id := by
      intro e
      obtain rfl := h.eq_of_id ha hjob e
      simp [claimable, hrun] at hc
    exact absurd (Option.some.inj (hnone a (mem_updateJob.mpr (Or.inr ⟨ha, hne⟩)) hrun)).symm hne
  · by_cases hid : a.id = id
    · rw [hin, hid]
    · exact absurd (hnone a (mem_updateJob.mpr (Or.inr ⟨ha, hid⟩)) hrun) nofun
  · exact absurd (hnone a ha hrun) nofun

theorem inv_start : start.Inv := ⟨List.Pairwise.nil, nofun, nofun, nofun⟩

theorem along_inv (acts : List Act) : Along step Inv start acts :=
  along_of_each inv_start (fun _ act h _ => h.step act) (each_of_mem fun _ _ _ => trivial)

theorem noneStranded_run_iff (acts : List Act) :
    (run step start acts).NoneStranded ↔ Each step Finishes start acts := by
  have hend : ∀ s : Executor, s.Inv → (run step s acts).NoneStranded → Along step NoneStranded s acts := by
    induction acts with
    | nil => exact fun _ _ h => h
    | cons act acts ih =>
      intro s hs h
      have hrest := ih _ (hs.step act) h
      exact ⟨stranded_step hs act (by cases acts <;> first | exact hrest | exact hrest.1), hrest⟩
  have hstart : start.NoneStranded := nofun
  rw [← and_iff_right hstart (b := Each step Finishes start acts),
    ← along_iff_each (along_inv acts) fun s act h hn => noneStranded_step h hn act]
  exact ⟨hend _ inv_start, Along.last⟩

end Executor

/-- After any run, with the executor between two calls: as many calls as there are open jobs attempt each of them
exactly if in the run every claimed job came to its end, and the jobs that keep failing are last. -/
theorem attempted_iff (acts : List Act) (outcome : Int → Except String Unit)
    (hin : (run Executor.step .start acts).inside = none) :
    AllAttempted outcome (run Executor.step .start acts).db ↔
      Each Executor.step Executor.Finishes .start acts ∧
        FailingLast outcome (run Executor.step .start acts).db.jobs := by
  have hinv := (Executor.along_inv acts).last
  rw [← Executor.noneStranded_run_iff]
  generalize run Executor.step .start acts = s at hin hinv
  have hnone : s.NoneStranded ↔ ∀ job ∈ s.db.jobs, job.status ≠ "running" := by
    simp [Executor.NoneStranded, hin]
  have hids : ∀ n, ((attemptFirst fun job => outcome job.id)^[n] s.db.jobs).map (·.id) = s.db.jobs.map (·.id) := by
    intro n
    induction n with
    | zero => rfl
    | succ n ih => rw [Function.iterate_succ_apply', attemptFirst_ids, ih]
  rw [hnone, ← attempted_table_iff hinv.sorted hinv.status, forall₂_attempted_iff (hids _) hinv.nodup, AllAttempted,
    calls_eq hinv.nodup]

def newJob : Act := .insert 1 "vm/web" "op-1" "vm.create" .null

/-- A job that failed once is attempted again, and so is the one after it. -/
theorem failed_job_attempted_again :
    (run Executor.step .start [newJob, newJob, .claim, .finish .failed]).inside = none ∧
    AllAttempted (fun _ => .ok ()) (run Executor.step .start [newJob, newJob, .claim, .finish .failed]).db := by
  refine ⟨rfl, (attempted_iff _ _ rfl).mpr ⟨⟨nofun, nofun, nofun, fun _ => ⟨nofun, nofun⟩, trivial⟩, ?_⟩⟩
  intro a _ _ hfail
  cases hfail

/-- The controller stops while the job is claimed: the job stays as it is. -/
theorem claimed_job_stranded :
    (run Executor.step .start [newJob, .claim, .restart]).inside = none ∧
    ¬ AllAttempted (fun _ => .ok ()) (run Executor.step .start [newJob, .claim, .restart]).db := by
  refine ⟨rfl, fun h => ?_⟩
  obtain ⟨later, hlater, -, hlt⟩ := h _ (List.mem_singleton.mpr rfl) (by decide)
  obtain rfl := List.mem_singleton.mp hlater
  exact absurd hlt (by decide)

end Kcore.Compensation
