import Kcore.Lib.Run
import Kcore.Policy
import Kcore.WebAuth.Credentials

/-!
# Credentials on several controllers

A request reads the record on its controller, hashes a password or checks a code, and writes the whole record back with
a later time. Its event takes the record to the other controllers, in any order. A controller that gets an event makes
it the head of the operator's credentials if its rank is above the one of the head it has, and drops it otherwise; the
materialiser then applies the head, and the stored record stays if it has a later time. The rank is that of the
envelope, with the clock of the controller where the request was made; a controller's own requests do not become its
head.

A row that is not there counts as the empty record, whose time 0 is before that of every record that is written. Calls
to the database that fail are left out, so that a write and the event it logs are one step: an event that is not logged
yet is one that is not delivered yet.
-/

namespace Kcore.WebAuth

open Machine

def Change.allowed (read : Credentials) : Change → Bool
  | .useCode code => read.totpEnabled && read.recoveryCodes.contains code
  | _ => true

structure Pending where
  controller : Nat
  change : Change
  read : Credentials

/-- The parts of an envelope that `log_replication_event_required` sets. -/
structure Envelope where
  logicalTsUnixMs : Int
  controllerId : String
  opId : String
  deriving DecidableEq

/-- Validity, safety class, priority and epoch are not in the envelope and have their defaults. -/
def Envelope.rank (e : Envelope) : ArbitrationRank := ⟨.valid, .safe, 0, 0, e.logicalTsUnixMs, e.controllerId, e.opId⟩

/-- An `operator_credentials.set`. -/
structure Update where
  envelope : Envelope
  record : Credentials
  deriving DecidableEq

structure Done where
  change : Change
  read : Credentials
  update : Update

abbrev Done.record (w : Done) : Credentials := w.update.record

structure Event where
  controller : Nat
  update : Update
  deriving DecidableEq

/-- `due` while the head is not the one that was materialised last. -/
structure Replica where
  stored : Credentials
  head : Option Update
  due : Bool
  deriving DecidableEq

/-- `log` has the requests that have succeeded, in the order of their writes. -/
structure Cluster where
  replicas : List Replica
  requests : List Pending
  events : List Event
  log : List Done

inductive Step where
  | read (controller : Nat) (change : Change)
  | write (i : Nat) (now : Int) (envelope : Envelope)
  | deliver (e : Event)
  | materialize (controller : Nat)

def keepLatest (creds old : Credentials) : Credentials := (upsert (some old) creds).getD old

def shouldReplaceHead (head : Option Update) (u : Update) : Bool :=
  match head with
  | none => true
  | some existing => compareRank u.envelope.rank existing.envelope.rank = .gt

namespace Replica

def deliver (u : Update) (r : Replica) : Replica :=
  if shouldReplaceHead r.head u then { r with head := some u, due := true } else r

def materialize (r : Replica) : Replica :=
  match r.head with
  | none => r
  | some u => if r.due then ⟨keepLatest u.record r.stored, some u, false⟩ else r

end Replica

namespace Cluster

def step (s : Cluster) : Step → Cluster
  | .read controller change =>
    match s.replicas[controller]? with
    | none => s
    | some r =>
      if change.allowed r.stored then { s with requests := s.requests ++ [⟨controller, change, r.stored⟩] } else s
  | .write i now envelope =>
    match s.requests[i]? with
    | none => s
    | some ⟨controller, change, read⟩ =>
      let update := ⟨envelope, change.apply now read⟩
      let others := (List.range s.replicas.length).filter (· ≠ controller)
      ⟨s.replicas.modify controller fun r => { r with stored := keepLatest update.record r.stored },
        s.requests.eraseIdx i, s.events ++ others.map (⟨·, update⟩), s.log ++ [⟨change, read, update⟩]⟩
  | .deliver e =>
    if e ∈ s.events then
      { s with replicas := s.replicas.modify e.controller (Replica.deliver e.update), events := s.events.erase e }
    else s
  | .materialize controller => { s with replicas := s.replicas.modify controller Replica.materialize }

def initial (n : Nat) (start : Credentials) : Cluster := ⟨List.replicate n ⟨start, none, false⟩, [], [], []⟩

def Settled (s : Cluster) : Prop := s.events = [] ∧ ∀ r ∈ s.replicas, r.due = false

instance (s : Cluster) : Decidable s.Settled :=
  inferInstanceAs (Decidable (s.events = [] ∧ ∀ r ∈ s.replicas, r.due = false))

end Cluster

inductive Item where
  | password (hash : String)
  | seed (secret : String)
  | code (hash : String)

def Credentials.accepts (r : Credentials) : Item → Bool
  | .password hash => hash ≠ "" ∧ r.passwordHash = hash
  | .seed secret => r.totpEnabled ∧ r.totpSecret = secret
  | .code hash => r.recoveryCodes.contains hash

def Change.sets : Change → Item → Bool
  | .setPassword hash, .password h => h = hash
  | .enroll secret _, .seed s => s = secret
  | .enroll _ codes, .code c => codes.contains c
  | _, _ => false

/-- Nothing is accepted that a request had replaced or consumed, unless a later request has set it. -/
def NoneLost (log : List Done) (r : Credentials) : Prop :=
  ∀ item, r.accepts item = true → ∀ before w after, log = before ++ w :: after → w.read.accepts item = true →
    w.record.accepts item = false → ∃ w' ∈ after, w'.change.sets item = true

def newest (start : Credentials) (log : List Done) : Credentials := (log.getLast?.map Done.record).getD start

/-- What a request writes is made from the record of the last request that has succeeded anywhere, and its event ranks
above the events of all requests before it. -/
def FromNewest (start : Credentials) (s : Cluster) : Step → Prop
  | .write i _ envelope => (∀ r ∈ s.requests[i]?, r.read = newest start s.log) ∧
    ∀ w ∈ s.log, compareRank envelope.rank w.update.envelope.rank = .gt
  | _ => True

instance (start : Credentials) (s : Cluster) : (a : Step) → Decidable (FromNewest start s a)
  | .write i _ envelope => inferInstanceAs (Decidable ((∀ r ∈ s.requests[i]?, r.read = newest start s.log) ∧
    ∀ w ∈ s.log, compareRank envelope.rank w.update.envelope.rank = .gt))
  | .read _ _ | .deliver _ | .materialize _ => inferInstanceAs (Decidable True)

/-! ### One record after the other -/

def Chain (start : Credentials) : List Done → Credentials → Prop
  | [], last => start = last
  | w :: log, last => w.read = start ∧ (∃ now, w.record = w.change.apply now w.read) ∧ Chain w.record log last

variable {start : Credentials} {log : List Done} {w : Done}

variable {last : Credentials}

private theorem Chain.append (h : Chain start log last) (hread : w.read = last)
    (hrecord : ∃ now, w.record = w.change.apply now w.read) : Chain start (log ++ [w]) w.record := by
  induction log generalizing start with
  | nil => exact ⟨hread.trans (Eq.symm h), hrecord, rfl⟩
  | cons w' log ih => exact ⟨h.1, h.2.1, ih h.2.2⟩

private theorem sets_of_accepts {now : Int} {read : Credentials} {change : Change} {item : Item}
    (h : (change.apply now read).accepts item = true) (hread : read.accepts item = false) : change.sets item = true := by
  cases change with
  | setPassword hash =>
    cases item with
    | password h' =>
      have : hash = h' := (of_decide_eq_true h).2
      simp [Change.sets, this]
    | seed s | code c => exact nomatch hread.symm.trans h
  | enroll secret codes =>
    cases item with
    | password h' => exact nomatch hread.symm.trans h
    | seed s =>
      have : secret = s := (of_decide_eq_true h).2
      simp [Change.sets, this]
    | code c => exact h
  | resetFactor =>
    cases item with
    | password h' => exact nomatch hread.symm.trans h
    | seed s | code c => simp [Change.apply, Credentials.accepts] at h
  | useCode code =>
    cases item with
    | password h' | seed s => exact nomatch hread.symm.trans h
    | code c =>
      have hmem : c ∈ read.recoveryCodes.erase code := by simpa [Change.apply, Credentials.accepts] using h
      have := List.mem_of_mem_erase hmem
      simp [Credentials.accepts, this] at hread

private theorem Chain.exists_sets {item : Item} (h : Chain start log last) (hlast : last.accepts item = true)
    (hstart : start.accepts item = false) : ∃ w ∈ log, w.change.sets item = true := by
  induction log generalizing start with
  | nil =>
    rw [show start = last from h, hlast] at hstart
    exact nomatch hstart
  | cons w log ih =>
    obtain ⟨rfl, ⟨now, hrecord⟩, hrest⟩ := h
    cases haccepts : w.record.accepts item with
    | true => exact ⟨w, List.mem_cons_self, sets_of_accepts (hrecord ▸ haccepts) hstart⟩
    | false =>
      obtain ⟨w', hw', hsets⟩ := ih hrest haccepts
      exact ⟨w', List.mem_cons_of_mem w hw', hsets⟩

private theorem Chain.of_append {before : List Done} {after : List Done} (h : Chain start (before ++ w :: after) last) :
    Chain w.record after last := by
  induction before generalizing start with
  | nil => exact h.2.2
  | cons w' before ih => exact ih h.2.2

private theorem Chain.noneLost (h : Chain start log last) : NoneLost log last := by
  rintro item hlast before w after rfl - hrecord
  exact h.of_append.exists_sets hlast hrecord

/-! ### Runs -/

def Older (last r : Credentials) : Prop := r = last ∨ r.updatedAt < last.updatedAt

private theorem Older.lt {r record : Credentials} (h : Older last r) (hlater : last.updatedAt < record.updatedAt) :
    r.updatedAt < record.updatedAt := by
  rcases h with rfl | h
  · exact hlater
  · omega

private theorem keepLatest_of_lt {creds old : Credentials} (h : old.updatedAt < creds.updatedAt) :
    keepLatest creds old = creds := by
  simp [keepLatest, upsert, Int.le_of_lt h]

private theorem Older.keepLatest {r old : Credentials} (h : Older last r) (hold : Older last old) :
    Older last (keepLatest r old) ∧ ((r = last ∨ old = last) → WebAuth.keepLatest r old = last) := by
  unfold WebAuth.keepLatest upsert
  dsimp only
  split
  · next hle =>
    refine ⟨h, ?_⟩
    rintro (rfl | rfl)
    · rfl
    · rcases h with h | h
      · exact h
      · omega
  · next hlt =>
    refine ⟨hold, ?_⟩
    rintro (rfl | rfl)
    · rcases hold with hold | hold
      · exact hold
      · exact absurd (Int.le_of_lt hold) hlt
    · rfl

def Ranked (log : List Done) : Prop :=
  log.Pairwise fun w w' => w.record.updatedAt < w'.record.updatedAt ∧ w.update.envelope.rank < w'.update.envelope.rank

private theorem Ranked.eq_or_lt {last : Done} (h : Ranked log) (hlast : log.getLast? = some last) (hw : w ∈ log) :
    w = last ∨ w.record.updatedAt < last.record.updatedAt ∧ w.update.envelope.rank < last.update.envelope.rank := by
  obtain ⟨init, rfl⟩ := List.getLast?_eq_some_iff.mp hlast
  rcases List.mem_append.mp hw with hw | hw
  · exact .inr ((List.pairwise_append.mp h).2.2 w hw last (List.mem_singleton_self last))
  · exact .inl (List.mem_singleton.mp hw)

private theorem newest_of_getLast {last : Done} (h : log.getLast? = some last) : newest start log = last.record := by
  rw [newest, h]
  rfl

private theorem Ranked.older (h : Ranked log) (hw : w ∈ log) : Older (newest start log) w.record := by
  obtain ⟨last, hlast⟩ := List.getLast?_isSome.mpr (List.ne_nil_of_mem hw) |> Option.isSome_iff_exists.mp
  rw [newest_of_getLast hlast]
  rcases h.eq_or_lt hlast hw with rfl | hlt
  · exact .inl rfl
  · exact .inr hlt.1

/-- The head is of a request that has succeeded, the record is not newer than the last one, and the controller has the
last one, or the update with it is on its way or is the head that is due. -/
structure UpToDate (start : Credentials) (log : List Done) (events : List Event) (d : Nat) (r : Replica) : Prop where
  head : ∀ u ∈ r.head, ∃ w ∈ log, w.update = u
  older : Older (newest start log) r.stored
  hasOrGets : r.stored = newest start log ∨ ∃ last, log.getLast? = some last ∧
    (r.head = some last.update → r.due = true) ∧ (⟨d, last.update⟩ ∈ events ∨ r.head = some last.update)

/-- The writes follow each other, events are of requests that have succeeded, and each controller has the last record or
will get it. -/
structure Converges (start : Credentials) (s : Cluster) : Prop where
  chain : Chain start s.log (newest start s.log)
  ranked : Ranked s.log
  events : ∀ e ∈ s.events, ∃ w ∈ s.log, w.update = e.update
  replicas : ∀ d r, s.replicas[d]? = some r → UpToDate start s.log s.events d r

private theorem newest_append (start : Credentials) (log : List Done) (w : Done) :
    newest start (log ++ [w]) = w.record := by
  simp [newest]

private theorem forall_getElem_modify {α : Type} {P : Nat → α → Prop} {l : List α} {c : Nat} {f : α → α}
    (hat : ∀ x, l[c]? = some x → P c (f x)) (helse : ∀ d x, c ≠ d → l[d]? = some x → P d x) (d : Nat) (x : α)
    (h : (l.modify c f)[d]? = some x) : P d x := by
  simp only [List.getElem?_modify, Option.map_eq_map, Option.map_eq_some_iff] at h
  obtain ⟨y, hy, rfl⟩ := h
  split_ifs with hd
  · subst hd
    exact hat y hy
  · exact helse d y hd hy

section Steps

variable {events : List Event} {d : Nat} {r : Replica} {last : Done} {u : Update}

private theorem shouldReplaceHead_eq_false (h : Ranked log) (hlast : log.getLast? = some last)
    (hu : ∃ w ∈ log, w.update = u) : shouldReplaceHead (some last.update) u = false := by
  obtain ⟨w, hw, rfl⟩ := hu
  refine decide_eq_false fun hgt => ?_
  have hlt := (compareRank_eq_gt_iff _ _).mp hgt
  rcases h.eq_or_lt hlast hw with rfl | ⟨-, hbelow⟩
  · exact lt_irrefl _ hlt
  · exact lt_asymm hlt hbelow

private theorem shouldReplaceHead_last (h : Ranked log) (hlast : log.getLast? = some last)
    (hhead : ∀ u ∈ r.head, ∃ w ∈ log, w.update = u) (hne : r.head ≠ some last.update) :
    shouldReplaceHead r.head last.update = true := by
  cases hu : r.head with
  | none => rfl
  | some u =>
    obtain ⟨w, hw, rfl⟩ := hhead u hu
    refine decide_eq_true ((compareRank_eq_gt_iff _ _).mpr ?_)
    rcases h.eq_or_lt hlast hw with rfl | ⟨-, hbelow⟩
    · exact absurd hu hne
    · exact hbelow

private theorem UpToDate.deliver (h : UpToDate start log events d r) (hranked : Ranked log)
    (hu : ∃ w ∈ log, w.update = u) : UpToDate start log (events.erase ⟨d, u⟩) d (r.deliver u) := by
  unfold Replica.deliver
  split_ifs with hreplace
  · refine ⟨fun u' hu' => Option.some.inj hu' ▸ hu, h.older, h.hasOrGets.imp_right ?_⟩
    rintro ⟨last, hlast, -, hway⟩
    refine ⟨last, hlast, fun _ => rfl, ?_⟩
    by_cases hnew : u = last.update
    · exact .inr (congrArg some hnew)
    · refine .inl ((List.mem_erase_of_ne fun heq => hnew (congrArg Event.update heq).symm).mpr (hway.resolve_right ?_))
      -- the update of the last request is not replaced
      intro hhead
      rw [hhead, shouldReplaceHead_eq_false hranked hlast hu] at hreplace
      exact nomatch hreplace
  · refine ⟨h.head, h.older, h.hasOrGets.imp_right ?_⟩
    rintro ⟨last, hlast, hdue, hway⟩
    refine ⟨last, hlast, hdue, ?_⟩
    by_cases hhead : r.head = some last.update
    · exact .inr hhead
    · refine .inl ((List.mem_erase_of_ne fun heq => ?_).mpr (hway.resolve_right hhead))
      have hnew : last.update = u := congrArg Event.update heq
      exact hreplace (hnew ▸ shouldReplaceHead_last hranked hlast h.head hhead)

private theorem UpToDate.erase {e : Event} (h : UpToDate start log events d r) (hne : e.controller ≠ d) :
    UpToDate start log (events.erase e) d r := by
  refine ⟨h.head, h.older, h.hasOrGets.imp_right ?_⟩
  rintro ⟨last, hlast, hdue, hway⟩
  exact ⟨last, hlast, hdue, hway.imp_left (List.mem_erase_of_ne fun heq => hne (congrArg Event.controller heq).symm).mpr⟩

private theorem UpToDate.materialize (h : UpToDate start log events d r) (hranked : Ranked log) :
    UpToDate start log events d r.materialize := by
  unfold Replica.materialize
  cases hu : r.head with
  | none => exact h
  | some u =>
    dsimp only
    split_ifs with hdue
    · obtain ⟨w, hw, rfl⟩ := h.head u hu
      have hkeep := Older.keepLatest (hranked.older hw) h.older
      refine ⟨fun u' hu' => Option.some.inj hu' ▸ ⟨w, hw, rfl⟩, hkeep.1, ?_⟩
      rcases h.hasOrGets with hnewest | ⟨last, hlast, -, hway⟩
      · exact .inl (hkeep.2 (.inr hnewest))
      · by_cases hnew : w.update = last.update
        · refine .inl (hkeep.2 (.inl ?_))
          rw [newest_of_getLast hlast, Done.record, hnew]
        · have hhead : some w.update ≠ some last.update := fun heq => hnew (Option.some.inj heq)
          exact .inr ⟨last, hlast, fun heq => absurd heq hhead,
            hway.imp_right fun heq => absurd (hu.symm.trans heq) hhead⟩
    · exact h

private theorem logged_append (hu : ∃ w ∈ log, w.update = u) (last : Done) : ∃ w ∈ log ++ [last], w.update = u := by
  obtain ⟨w, hw, hupdate⟩ := hu
  exact ⟨w, List.mem_append_left _ hw, hupdate⟩

private theorem UpToDate.write (h : UpToDate start log events d r)
    (hlater : (newest start log).updatedAt < last.record.updatedAt) (events' : List Event) :
    UpToDate start (log ++ [last]) events' d { r with stored := keepLatest last.record r.stored } := by
  have hkeep := keepLatest_of_lt (h.older.lt hlater)
  refine ⟨fun u hu => logged_append (h.head u hu) last, ?_, ?_⟩ <;> rw [newest_append]
  · exact .inl hkeep
  · exact .inl hkeep

private theorem UpToDate.send {events' : List Event} (h : UpToDate start log events d r)
    (hlater : (newest start log).updatedAt < last.record.updatedAt)
    (hrank : ∀ w ∈ log, compareRank last.update.envelope.rank w.update.envelope.rank = .gt)
    (hevent : ⟨d, last.update⟩ ∈ events') : UpToDate start (log ++ [last]) events' d r := by
  refine ⟨fun u hu => logged_append (h.head u hu) last, ?_,
    .inr ⟨last, List.getLast?_concat, fun hhead => ?_, .inl hevent⟩⟩
  · rw [newest_append]
    exact .inr (h.older.lt hlater)
  · -- no head has the rank of the new update
    obtain ⟨w, hw, hupdate⟩ := h.head _ hhead
    have hgt := (compareRank_eq_gt_iff _ _).mp (hrank w hw)
    rw [hupdate] at hgt
    exact absurd hgt (lt_irrefl _)

private theorem Ranked.append (h : Ranked log) (hlater : (newest start log).updatedAt < last.record.updatedAt)
    (hrank : ∀ w ∈ log, compareRank last.update.envelope.rank w.update.envelope.rank = .gt) :
    Ranked (log ++ [last]) := by
  refine List.pairwise_append.mpr ⟨h, List.pairwise_singleton _ _, fun w hw w' hw' => ?_⟩
  rw [List.mem_singleton.mp hw']
  exact ⟨(h.older hw).lt hlater, (compareRank_eq_gt_iff _ _).mp (hrank w hw)⟩

variable {s : Cluster}

private theorem Converges.write {i : Nat} {now : Int} {controller : Nat} {change : Change} {read : Credentials}
    {envelope : Envelope} (h : Converges start s) (hrequest : s.requests[i]? = some ⟨controller, change, read⟩)
    (hread : read = newest start s.log) (hrank : ∀ w ∈ s.log, compareRank envelope.rank w.update.envelope.rank = .gt) :
    Converges start (s.step (.write i now envelope)) := by
  have hlater := updatedAt_apply now read change
  rw [show read.updatedAt = (newest start s.log).updatedAt by rw [hread]] at hlater
  simp only [Cluster.step, hrequest]
  refine ⟨?_, h.ranked.append hlater hrank, fun e he => ?_, forall_getElem_modify (fun r hr => ?_) fun d r hd hr => ?_⟩
  · rw [newest_append]
    exact h.chain.append hread ⟨now, rfl⟩
  · rcases List.mem_append.mp he with he | he
    · exact logged_append (h.events e he) _
    · obtain ⟨d, -, rfl⟩ := List.mem_map.mp he
      exact ⟨_, List.mem_append_right _ (List.mem_singleton_self _), rfl⟩
  · exact (h.replicas _ r hr).write hlater _
  · refine (h.replicas d r hr).send hlater hrank (List.mem_append_right _ (List.mem_map.mpr ⟨d, ?_, rfl⟩))
    refine List.mem_filter.mpr ⟨List.mem_range.mpr (List.getElem?_eq_some_iff.mp hr).1, decide_eq_true (Ne.symm hd)⟩

private theorem converges_step {a : Step} (h : Converges start s) (ha : FromNewest start s a) :
    Converges start (s.step a) := by
  cases a with
  | read controller change =>
    simp only [Cluster.step]
    split
    · exact h
    · split
      · exact ⟨h.chain, h.ranked, h.events, h.replicas⟩
      · exact h
  | write i now envelope =>
    cases hrequest : s.requests[i]? with
    | none =>
      simp only [Cluster.step, hrequest]
      exact h
    | some r => exact h.write hrequest (ha.1 r hrequest) ha.2
  | deliver e =>
    simp only [Cluster.step]
    split
    · next he =>
      refine ⟨h.chain, h.ranked, fun e' he' => h.events e' (List.mem_of_mem_erase he'), ?_⟩
      exact forall_getElem_modify (fun r hr => (h.replicas _ r hr).deliver h.ranked (h.events e he))
        fun d r hd hr => (h.replicas d r hr).erase hd
    · exact h
  | materialize controller =>
    exact ⟨h.chain, h.ranked, h.events, forall_getElem_modify (fun r hr => (h.replicas _ r hr).materialize h.ranked)
      fun d r _ hr => h.replicas d r hr⟩

end Steps

/-- Once all events are applied, no controller accepts what a request had replaced or consumed. -/
theorem credential_changes_kept (n : Nat) (start : Credentials) (acts : List Step)
    (h : Each Cluster.step (FromNewest start) (.initial n start) acts) :
    Along Cluster.step (fun s => s.Settled → ∀ r ∈ s.replicas, NoneLost s.log r.stored) (.initial n start) acts := by
  have hinitial : Converges start (.initial n start) := by
    refine ⟨rfl, .nil, fun e he => absurd he List.not_mem_nil, fun d r hr => ?_⟩
    rw [(List.mem_replicate.mp (List.mem_of_getElem? hr)).2]
    exact ⟨fun u hu => (nomatch hu), .inl rfl, .inl rfl⟩
  refine (along_of_each hinitial (fun s a => converges_step) h).mono fun s hs hsettled r hr => ?_
  obtain ⟨d, hd⟩ := List.getElem?_of_mem hr
  rcases (hs.replicas d r hd).hasOrGets with hnewest | ⟨last, -, hdue, hway⟩
  · rw [hnewest]
    exact hs.chain.noneLost
  · rw [hsettled.1] at hway
    have hlast := hdue (hway.resolve_left List.not_mem_nil)
    exact nomatch (hsettled.2 r hr).symm.trans hlast

def signedUp : Credentials := ⟨"old", "seed", true, ["code"], 10⟩

def atTime (ts : Int) (controller : String) : Envelope := ⟨ts, controller, "op"⟩

/-- The password is changed on the controller 0, and then the recovery code is used on the controller 1; the controller
2 gets the second event first. -/
def changeThenUse : List Step :=
  let changed : Update := ⟨atTime 1000 "c0", "new", "seed", true, ["code"], 100⟩
  let used : Update := ⟨atTime 1010 "c1", "new", "seed", true, [], 101⟩
  [.read 0 (.setPassword "new"), .write 0 100 changed.envelope, .deliver ⟨1, changed⟩, .materialize 1,
    .read 1 (.useCode "code"), .write 0 101 used.envelope, .deliver ⟨2, used⟩, .deliver ⟨2, changed⟩, .materialize 2,
    .deliver ⟨0, used⟩, .materialize 0]

theorem change_then_use_kept :
    (run Cluster.step (.initial 3 signedUp) changeThenUse).replicas.map Replica.stored =
      List.replicate 3 ⟨"new", "seed", true, [], 101⟩ ∧
    ∀ r ∈ (run Cluster.step (.initial 3 signedUp) changeThenUse).replicas,
      NoneLost (run Cluster.step (.initial 3 signedUp) changeThenUse).log r.stored :=
  ⟨by decide, (credential_changes_kept 3 signedUp changeThenUse (by decide)).last (by decide)⟩

/-- A change of the password on the controller 0 and the use of the recovery code on the controller 1 have both read the
record before the other writes. -/
def changeWhileUse : List Step :=
  let changed : Update := ⟨atTime 1000 "c0", "new", "seed", true, ["code"], 100⟩
  let used : Update := ⟨atTime 1010 "c1", "old", "seed", true, [], 101⟩
  [.read 0 (.setPassword "new"), .read 1 (.useCode "code"), .write 0 100 changed.envelope, .write 0 101 used.envelope,
    .deliver ⟨1, changed⟩, .deliver ⟨0, used⟩, .materialize 0, .materialize 1]

/-- The password is changed on the controller 0 and then, with the record that was delivered, on the controller 1, whose
clock is behind. -/
def slowClock : List Step :=
  let first : Update := ⟨atTime 2000 "c0", "old2", "seed", true, ["code"], 100⟩
  let second : Update := ⟨atTime 1500 "c1", "new", "seed", true, ["code"], 101⟩
  [.read 0 (.setPassword "old2"), .write 0 100 first.envelope, .deliver ⟨1, first⟩, .deliver ⟨2, first⟩, .materialize 1,
    .materialize 2, .read 1 (.setPassword "new"), .write 0 1 second.envelope, .deliver ⟨0, second⟩, .deliver ⟨2, second⟩,
    .materialize 0, .materialize 2]

/-- Both controllers accept the old password, which was replaced; and the third controller keeps the first new password,
although each request was made from the newest record. -/
theorem replaced_password_accepted :
    ((run Cluster.step (.initial 2 signedUp) changeWhileUse).Settled ∧
      ¬ ∀ r ∈ (run Cluster.step (.initial 2 signedUp) changeWhileUse).replicas,
        NoneLost (run Cluster.step (.initial 2 signedUp) changeWhileUse).log r.stored) ∧
    (run Cluster.step (.initial 3 signedUp) slowClock).Settled ∧
      ¬ ∀ r ∈ (run Cluster.step (.initial 3 signedUp) slowClock).replicas,
        NoneLost (run Cluster.step (.initial 3 signedUp) slowClock).log r.stored := by
  refine ⟨⟨by decide, fun h => ?_⟩, by decide, fun h => ?_⟩
  · have hstored :
      (⟨⟨"old", "seed", true, [], 101⟩, some ⟨atTime 1010 "c1", "old", "seed", true, [], 101⟩, false⟩ : Replica) ∈
        (run Cluster.step (.initial 2 signedUp) changeWhileUse).replicas := by decide
    obtain ⟨w, hw, hsets⟩ := h _ hstored (.password "old") (by decide) [] ⟨.setPassword "new", signedUp, _⟩
      [⟨.useCode "code", signedUp, _⟩] rfl (by decide) (by decide)
    rw [List.mem_singleton.mp hw] at hsets
    exact nomatch hsets
  · have hstored : (⟨⟨"old2", "seed", true, ["code"], 100⟩,
        some ⟨atTime 2000 "c0", "old2", "seed", true, ["code"], 100⟩, false⟩ : Replica) ∈
        (run Cluster.step (.initial 3 signedUp) slowClock).replicas := by decide
    obtain ⟨w, hw, -⟩ := h _ hstored (.password "old2") (by decide) [⟨.setPassword "old2", signedUp, _⟩]
      ⟨.setPassword "new", _, _⟩ [] rfl (by decide) (by decide)
    exact absurd hw List.not_mem_nil

end Kcore.WebAuth
