import Mathlib.Data.List.MinMax
import Mathlib.Logic.Function.Basic
import Kcore.Lib.Run
import Kcore.Ha.LeasePass

/-!
# The stored lease, call by call

A pass over the lease and the application of a received lease both read the stored row, decide, and store a row
with a second database call; a pass then publishes its row with a third. Here the calls of different operations
on one controller interleave. `stored_lease_iff` says when the stored row never becomes smaller, and that all
controllers then end with the greatest published row.
-/

namespace Kcore

inductive PassPhase where
  | idle
  | decided (read : Option ClusterLeaseRow) (row : ClusterLeaseRow)
  | written (row : ClusterLeaseRow)

structure ApplyTask where
  index : Nat
  read : Option ClusterLeaseRow
  row : ClusterLeaseRow

structure LeaseSite where
  stored : Option ClusterLeaseRow
  passing : PassPhase
  applying : List ApplyTask
  applied : List Nat

inductive SiteCall where
  | passRead (inputs : LeasePass)
  | passWrite
  | passPublish
  | applyRead (index : Nat)
  | applyWrite (index : Nat)

def LeaseSite.received (site : LeaseSite) (index : Nat) : Bool :=
  site.applied.contains index || site.applying.any (·.index = index)

/-- `apply_ha_lease` up to its write: a lease that does not supersede the stored one is done with. -/
def LeaseSite.beginApply (site : LeaseSite) (index : Nat) (incoming : ClusterLeaseRow) : LeaseSite :=
  if leaseSupersedes (site.stored.map (·.view)) incoming.view then
    { site with applying := ⟨index, site.stored, incoming⟩ :: site.applying }
  else { site with applied := index :: site.applied }

/-- One database call on the controller `selfId`; `published` is what all controllers have published so far. -/
def LeaseSite.call (nowMs : Int) (published : List ClusterLeaseRow) (selfId : String) (site : LeaseSite) :
    SiteCall → LeaseSite
  | .passRead inputs => match site.passing, leaseToStore selfId nowMs inputs site.stored with
    | .idle, some row => { site with passing := .decided site.stored row }
    | _, _ => site
  | .passWrite => match site.passing with
    | .decided _ row => { site with stored := some row, passing := .written row }
    | _ => site
  | .passPublish => match site.passing with
    | .written _ => { site with passing := .idle }
    | _ => site
  | .applyRead index => match published[index]? with
    | none => site
    | some row =>
      -- A controller polls its peers only, and an event it has received is skipped.
      if row.holder = selfId || site.received index then site
      else match leaseFromBody (leaseBody row) with
        | .error _ => site
        | .ok incoming => site.beginApply index incoming
  | .applyWrite index => match site.applying.find? (·.index = index) with
    | none => site
    | some task =>
      { site with
        stored := some task.row
        applying := site.applying.filter (·.index ≠ index)
        applied := index :: site.applied }

def LeaseSite.publishes (site : LeaseSite) : SiteCall → List ClusterLeaseRow
  | .passPublish => match site.passing with
    | .written row => [row]
    | _ => []
  | _ => []

def AtMost (stored : Option ClusterLeaseRow) (row : ClusterLeaseRow) : Prop :=
  ∀ r, stored = some r → r.view ≤ row.view

def AtLeast (stored : Option ClusterLeaseRow) (row : ClusterLeaseRow) : Prop :=
  ∃ r, stored = some r ∧ row.view ≤ r.view

def LeaseSite.Undisturbed (site : LeaseSite) : SiteCall → Prop
  | .passWrite => ∀ read row, site.passing = .decided read row → site.stored = read ∨ AtMost site.stored row
  | .applyWrite index => ∀ task, site.applying.find? (·.index = index) = some task →
      site.stored = task.read ∨ AtMost site.stored task.row
  | _ => True

structure LeaseNet where
  nowMs : Int
  sites : String → LeaseSite
  published : List ClusterLeaseRow

inductive NetAction where
  | tick (ms : Nat)
  | call (selfId : String) (c : SiteCall)

def SiteCall.configured (renewSecs : Int) : SiteCall → SiteCall
  | .passRead inputs => .passRead { inputs with leaseRenewSecs := renewSecs }
  | c => c

namespace LeaseNet

def start (nowMs : Int) : LeaseNet := ⟨nowMs, fun _ => ⟨none, .idle, [], []⟩, []⟩

def step (renewSecs : String → Int) (s : LeaseNet) : NetAction → LeaseNet
  | .tick ms => { s with nowMs := s.nowMs + ms }
  | .call selfId c =>
    let site := s.sites selfId
    let next := site.call s.nowMs s.published selfId (c.configured (renewSecs selfId))
    { s with sites := Function.update s.sites selfId next, published := s.published ++ site.publishes c }

def Grows (renewSecs : String → Int) (s : LeaseNet) (a : NetAction) : Prop :=
  ∀ c row, (s.sites c).stored = some row → AtLeast ((s.step renewSecs a).sites c).stored row

/-- Every write finds the row its operation has read, or one that is not greater than the row it stores. -/
def Undisturbed (s : LeaseNet) : NetAction → Prop
  | .tick _ => True
  | .call selfId c => (s.sites selfId).Undisturbed c

def TermsFit (s : LeaseNet) : Prop := ∀ c row, (s.sites c).stored = some row → row.term < i64Max

/-- Every published lease has been applied at these controllers, and none of them has still to publish the row
it has stored. -/
def Settled (s : LeaseNet) (members : List String) : Prop :=
  ∀ c ∈ members, (∀ row, (s.sites c).passing ≠ .written row) ∧
    ∀ index row, s.published[index]? = some row → row.holder ≠ c → index ∈ (s.sites c).applied

end LeaseNet

section Rows

variable {stored read : Option ClusterLeaseRow} {row r : ClusterLeaseRow}

theorem atLeast_some_iff : AtLeast (some r) row ↔ row.view ≤ r.view := by
  constructor
  · rintro ⟨r', hr, hle⟩
    exact Option.some.inj hr ▸ hle
  · exact fun hle => ⟨r, rfl, hle⟩

theorem AtLeast.refl (row : ClusterLeaseRow) : AtLeast (some row) row := atLeast_some_iff.mpr le_rfl

theorem AtLeast.overwrite (h : AtLeast stored r) (hw : AtMost stored row) : AtLeast (some row) r := by
  obtain ⟨r', hr', hle⟩ := h
  exact ⟨row, rfl, hle.trans (hw r' hr')⟩

theorem atMost_of_undisturbed (h : stored = read ∨ AtMost stored row) (hread : AtMost read row) :
    AtMost stored row := by
  rcases h with rfl | h
  · exact hread
  · exact h

theorem atMost_of_supersedes (h : leaseSupersedes (stored.map (·.view)) row.view = true) : AtMost stored row := by
  intro r hr
  subst hr
  exact le_of_lt ((leaseSupersedes_some_iff _ _).mp h)

theorem atLeast_of_not_supersedes (h : ¬ leaseSupersedes (stored.map (·.view)) row.view = true) :
    AtLeast stored row := by
  cases stored with
  | none => exact absurd rfl h
  | some r =>
    refine ⟨r, rfl, not_lt.mp fun hlt => h ?_⟩
    exact (leaseSupersedes_some_iff _ _).mpr hlt

end Rows

/-! ### What the operations under way know -/

theorem saturateI64_mono {a b : Int} (h : a ≤ b) : saturateI64 a ≤ saturateI64 b := by
  unfold saturateI64
  omega

theorem fitsI64_saturateI64 (a : Int) : fitsI64 (saturateI64 a) = true := by
  unfold fitsI64 saturateI64 i64Min i64Max
  rw [decide_eq_true_eq]
  omega

theorem leaseExpiry_mono {now now' : Int} (renewMs : Int) (h : now ≤ now') :
    leaseExpiry now renewMs ≤ leaseExpiry now' renewMs :=
  saturateI64_mono (by omega)

structure SoundRow (renewSecs : String → Int) (nowMs : Int) (row : ClusterLeaseRow) : Prop where
  termFits : fitsI64 row.term = true
  expiryFits : fitsI64 row.expiresAtMs = true
  expiry : row.expiresAtMs ≤ leaseExpiry nowMs (saturateI64 (renewSecs row.holder * 1000))

section Site

variable {renewSecs : String → Int} {nowMs : Int} {published : List ClusterLeaseRow} {selfId : String}
  {site : LeaseSite} {row : ClusterLeaseRow}

theorem SoundRow.mono {later : Int} (h : SoundRow renewSecs nowMs row) (hle : nowMs ≤ later) :
    SoundRow renewSecs later row :=
  ⟨h.termFits, h.expiryFits, h.expiry.trans (leaseExpiry_mono _ hle)⟩

structure SiteOk (renewSecs : String → Int) (nowMs : Int) (published : List ClusterLeaseRow) (selfId : String)
    (site : LeaseSite) : Prop where
  stored : ∀ row, site.stored = some row →
    SoundRow renewSecs nowMs row ∧ (row ∈ published ∨ site.passing = .written row)
  decided : ∀ read row, site.passing = .decided read row →
    row.holder = selfId ∧ SoundRow renewSecs nowMs row ∧ AtMost read row
  written : ∀ row, site.passing = .written row → row.holder = selfId ∧ SoundRow renewSecs nowMs row
  tasks : ∀ task ∈ site.applying, published[task.index]? = some task.row ∧ AtMost task.read task.row

theorem sound_of_leaseToStore {inputs : LeasePass} {current : Option ClusterLeaseRow}
    (hcur : ∀ r, current = some r → SoundRow renewSecs nowMs r ∧ r.term < i64Max)
    (hrenew : inputs.leaseRenewSecs = renewSecs selfId)
    (h : leaseToStore selfId nowMs inputs current = some row) :
    SoundRow renewSecs nowMs row ∧ AtMost current row := by
  obtain ⟨-, hself, hexp⟩ := of_leaseToStore_eq_some h
  rw [hrenew] at hexp
  have hsound : fitsI64 row.term = true → SoundRow renewSecs nowMs row := by
    intro hterm
    refine ⟨hterm, ?_, ?_⟩
    · rw [hexp]
      exact fitsI64_saturateI64 _
    · rw [hexp, hself]
  have hready : inputs.directHeartbeatFresh = true ∧ 0 ≤ inputs.nodeTimeoutSecs := by
    by_contra hnot
    rw [leaseToStore_of_not_fresh _ hnot] at h
    exact absurd h (by simp)
  rcases leaseToStore_cases selfId nowMs current hready.1 hready.2 with
    ⟨lease, -, -, -, hstore⟩ | ⟨lease, rfl, -, hheld, hstore⟩ | ⟨lease, rfl, -, hstore⟩ | ⟨rfl, hstore⟩
  · rw [hstore] at h
    exact absurd h (by simp)
  · -- A renewal keeps the term and the holder, and the clock has not gone back since the last one.
    rw [hstore] at h
    obtain rfl := Option.some.inj h
    obtain ⟨hlease, -⟩ := hcur lease rfl
    refine ⟨hsound hlease.termFits, fun r hr => ?_⟩
    obtain rfl := Option.some.inj hr
    have hgrow := hlease.expiry
    rw [hheld, ← hrenew] at hgrow
    rcases eq_or_lt_of_le hgrow with heq | hlt
    · refine le_of_eq (LeaseView.ext hheld heq rfl)
    · exact le_of_lt ((LeaseView.lt_iff _ _).mpr (.inr ⟨rfl, .inr ⟨hheld, hlt⟩⟩))
  · rw [hstore] at h
    split_ifs at h
    obtain rfl := Option.some.inj h
    refine ⟨hsound (fitsI64_saturateI64 _), fun r hr => ?_⟩
    obtain rfl := Option.some.inj hr
    have hterm := (hcur lease rfl).2
    refine le_of_lt ((LeaseView.lt_iff _ _).mpr (.inl ?_))
    show lease.term < saturateI64 (lease.term + 1)
    unfold saturateI64 i64Min i64Max
    unfold i64Max at hterm
    omega
  · rw [hstore] at h
    split_ifs at h
    obtain rfl := Option.some.inj h
    exact ⟨hsound rfl, fun r hr => absurd hr (by simp)⟩

theorem leaseFromBody_of_sound (h : SoundRow renewSecs nowMs row) : leaseFromBody (leaseBody row) = .ok row := by
  rw [leaseFromBody_leaseBody, h.expiryFits, h.termFits]
  rfl

theorem getElem?_append_published {index : Nat} (more : List ClusterLeaseRow) (h : published[index]? = some row) :
    (published ++ more)[index]? = some row := by
  obtain ⟨hlt, -⟩ := List.getElem?_eq_some_iff.mp h
  rw [List.getElem?_append_left hlt, h]

theorem SiteOk.publish (h : SiteOk renewSecs nowMs published selfId site) (more : List ClusterLeaseRow) :
    SiteOk renewSecs nowMs (published ++ more) selfId site := by
  refine ⟨fun row hrow => ?_, h.decided, h.written, fun task ht => ?_⟩
  · obtain ⟨hsound, hsource⟩ := h.stored row hrow
    exact ⟨hsound, hsource.imp_left (List.mem_append_left more)⟩
  · obtain ⟨hindex, hread⟩ := h.tasks task ht
    exact ⟨getElem?_append_published more hindex, hread⟩

theorem SiteOk.mono {later : Int} (h : SiteOk renewSecs nowMs published selfId site) (hle : nowMs ≤ later) :
    SiteOk renewSecs later published selfId site := by
  refine ⟨fun row hrow => ?_, fun read row hrow => ?_, fun row hrow => ?_, h.tasks⟩
  · obtain ⟨hsound, hsource⟩ := h.stored row hrow
    exact ⟨hsound.mono hle, hsource⟩
  · obtain ⟨hself, hsound, hread⟩ := h.decided read row hrow
    exact ⟨hself, hsound.mono hle, hread⟩
  · obtain ⟨hself, hsound⟩ := h.written row hrow
    exact ⟨hself, hsound.mono hle⟩

/-! ### Everything a call can do -/

theorem call_passRead (nowMs : Int) (published : List ClusterLeaseRow) (selfId : String) (site : LeaseSite)
    (inputs : LeasePass) :
    site.call nowMs published selfId (.passRead inputs) = site ∨
    ∃ row, site.passing = .idle ∧ leaseToStore selfId nowMs inputs site.stored = some row ∧
      site.call nowMs published selfId (.passRead inputs) = { site with passing := .decided site.stored row } := by
  obtain ⟨stored, passing, applying, applied⟩ := site
  cases hstore : leaseToStore selfId nowMs inputs stored with
  | none | some => cases passing <;> simp [LeaseSite.call, hstore]

theorem call_passWrite (nowMs : Int) (published : List ClusterLeaseRow) (selfId : String) (site : LeaseSite) :
    ((∀ read row, site.passing ≠ .decided read row) ∧ site.call nowMs published selfId .passWrite = site) ∨
    ∃ read row, site.passing = .decided read row ∧
      site.call nowMs published selfId .passWrite = { site with stored := some row, passing := .written row } := by
  obtain ⟨stored, passing, applying, applied⟩ := site
  cases passing <;> simp [LeaseSite.call]

theorem call_passPublish (nowMs : Int) (published : List ClusterLeaseRow) (selfId : String) (site : LeaseSite) :
    (site.publishes .passPublish = [] ∧ site.call nowMs published selfId .passPublish = site) ∨
    ∃ row, site.passing = .written row ∧ site.publishes .passPublish = [row] ∧
      site.call nowMs published selfId .passPublish = { site with passing := .idle } := by
  obtain ⟨stored, passing, applying, applied⟩ := site
  cases passing <;> simp [LeaseSite.call, LeaseSite.publishes]

theorem call_applyRead (nowMs : Int) (published : List ClusterLeaseRow) (selfId : String) (site : LeaseSite)
    (index : Nat) (hpub : ∀ r ∈ published, leaseFromBody (leaseBody r) = .ok r) :
    site.call nowMs published selfId (.applyRead index) = site ∨
    ∃ row, published[index]? = some row ∧ row.holder ≠ selfId ∧
      site.call nowMs published selfId (.applyRead index) = site.beginApply index row := by
  cases hget : published[index]? with
  | none => exact .inl (by simp [LeaseSite.call, hget])
  | some row =>
    by_cases hskip : row.holder = selfId ∨ site.received index = true
    · exact .inl (by simp [LeaseSite.call, hget, hskip])
    · refine .inr ⟨row, rfl, fun hself => hskip (.inl hself), ?_⟩
      simp [LeaseSite.call, hget, hskip, hpub row (List.mem_of_getElem? hget)]

theorem call_applyWrite (nowMs : Int) (published : List ClusterLeaseRow) (selfId : String) (site : LeaseSite)
    (index : Nat) :
    (site.applying.find? (·.index = index) = none ∧ site.call nowMs published selfId (.applyWrite index) = site) ∨
    ∃ task, site.applying.find? (·.index = index) = some task ∧ task ∈ site.applying ∧ task.index = index ∧
      site.call nowMs published selfId (.applyWrite index) =
        { site with
          stored := some task.row
          applying := site.applying.filter (·.index ≠ index)
          applied := index :: site.applied } := by
  cases hfind : site.applying.find? (·.index = index) with
  | none => exact .inl ⟨rfl, by simp [LeaseSite.call, hfind]⟩
  | some task =>
    have hindex : task.index = index := by simpa using List.find?_some hfind
    exact .inr ⟨task, rfl, List.mem_of_find?_eq_some hfind, hindex, by simp [LeaseSite.call, hfind]⟩

/-! ### The invariant of a controller -/

theorem SiteOk.passRead {inputs : LeasePass} (h : SiteOk renewSecs nowMs published selfId site)
    (hterms : ∀ r, site.stored = some r → r.term < i64Max) (hrenew : inputs.leaseRenewSecs = renewSecs selfId) :
    SiteOk renewSecs nowMs published selfId (site.call nowMs published selfId (.passRead inputs)) := by
  rcases call_passRead nowMs published selfId site inputs with heq | ⟨row, hidle, hstore, heq⟩ <;> rw [heq]
  · exact h
  · obtain ⟨hsound, hread⟩ := sound_of_leaseToStore (fun r hr => ⟨(h.stored r hr).1, hterms r hr⟩) hrenew hstore
    refine ⟨fun r hr => ?_, fun read row' hdec => ?_, fun row' hw => absurd hw (by simp), h.tasks⟩
    · obtain ⟨hr1, hr2⟩ := h.stored r hr
      rw [hidle] at hr2
      exact ⟨hr1, hr2.imp_right fun hw => absurd hw (by simp)⟩
    · obtain ⟨rfl, rfl⟩ := PassPhase.decided.inj hdec
      exact ⟨(of_leaseToStore_eq_some hstore).2.1, hsound, hread⟩

theorem SiteOk.passWrite (h : SiteOk renewSecs nowMs published selfId site) :
    SiteOk renewSecs nowMs published selfId (site.call nowMs published selfId .passWrite) := by
  rcases call_passWrite nowMs published selfId site with ⟨-, heq⟩ | ⟨read, row, hphase, heq⟩ <;> rw [heq]
  · exact h
  · obtain ⟨hself, hsound, -⟩ := h.decided read row hphase
    refine ⟨fun r hr => ?_, fun read' row' hdec => absurd hdec (by simp), fun row' hw => ?_, h.tasks⟩
    · obtain rfl := Option.some.inj hr
      exact ⟨hsound, .inr rfl⟩
    · obtain rfl := PassPhase.written.inj hw
      exact ⟨hself, hsound⟩

theorem SiteOk.passPublish (h : SiteOk renewSecs nowMs published selfId site) :
    SiteOk renewSecs nowMs (published ++ site.publishes .passPublish) selfId
      (site.call nowMs published selfId .passPublish) := by
  rcases call_passPublish nowMs published selfId site with ⟨hpub, heq⟩ | ⟨row, hphase, hpub, heq⟩ <;> rw [hpub, heq]
  · exact h.publish []
  · refine ⟨fun r hr => ?_, fun read' row' hdec => absurd hdec (by simp), fun row' hw => absurd hw (by simp), ?_⟩
    · obtain ⟨hsound, hsource⟩ := h.stored r hr
      refine ⟨hsound, .inl ?_⟩
      rcases hsource with hmem | hw
      · exact List.mem_append_left _ hmem
      · rw [hphase] at hw
        obtain rfl := PassPhase.written.inj hw
        exact List.mem_append_right _ (List.mem_singleton.mpr rfl)
    · exact (h.publish [row]).tasks

theorem SiteOk.applyRead {index : Nat} (h : SiteOk renewSecs nowMs published selfId site)
    (hpub : ∀ r ∈ published, SoundRow renewSecs nowMs r) :
    SiteOk renewSecs nowMs published selfId (site.call nowMs published selfId (.applyRead index)) := by
  rcases call_applyRead nowMs published selfId site index (fun r hr => leaseFromBody_of_sound (hpub r hr)) with
    heq | ⟨row, hget, -, heq⟩ <;> rw [heq]
  · exact h
  · unfold LeaseSite.beginApply
    split_ifs with hsup
    · refine ⟨h.stored, h.decided, h.written, fun task ht => ?_⟩
      rcases List.mem_cons.mp ht with rfl | ht
      · exact ⟨hget, atMost_of_supersedes hsup⟩
      · exact h.tasks task ht
    · exact ⟨h.stored, h.decided, h.written, h.tasks⟩

theorem SiteOk.applyWrite {index : Nat} (h : SiteOk renewSecs nowMs published selfId site)
    (hpub : ∀ r ∈ published, SoundRow renewSecs nowMs r) :
    SiteOk renewSecs nowMs published selfId (site.call nowMs published selfId (.applyWrite index)) := by
  rcases call_applyWrite nowMs published selfId site index with ⟨-, heq⟩ | ⟨task, -, htask, -, heq⟩ <;> rw [heq]
  · exact h
  · have hmem := List.mem_of_getElem? (h.tasks task htask).1
    refine ⟨fun r hr => ?_, h.decided, h.written, fun t ht => h.tasks t (List.mem_of_mem_filter ht)⟩
    obtain rfl := Option.some.inj hr
    exact ⟨hpub _ hmem, .inl hmem⟩

theorem SiteOk.call (h : SiteOk renewSecs nowMs published selfId site)
    (hpub : ∀ r ∈ published, SoundRow renewSecs nowMs r)
    (hterms : ∀ r, site.stored = some r → r.term < i64Max) (c : SiteCall) :
    SiteOk renewSecs nowMs (published ++ site.publishes c) selfId
      (site.call nowMs published selfId (c.configured (renewSecs selfId))) := by
  cases c with
  | passRead inputs => exact (h.passRead hterms rfl).publish []
  | passWrite => exact h.passWrite.publish []
  | passPublish => exact h.passPublish
  | applyRead index => exact (h.applyRead hpub).publish []
  | applyWrite index => exact (h.applyWrite hpub).publish []

/-! ### Writes that are not disturbed -/

/-- The stored row is at least all the controller has published or applied. -/
structure SiteAhead (published : List ClusterLeaseRow) (selfId : String) (site : LeaseSite) : Prop where
  own : ∀ row ∈ published, row.holder = selfId → AtLeast site.stored row
  written : ∀ row, site.passing = .written row → AtLeast site.stored row
  applied : ∀ index ∈ site.applied, ∃ row, published[index]? = some row ∧ AtLeast site.stored row

theorem SiteAhead.publish (h : SiteAhead published selfId site) (more : List ClusterLeaseRow)
    (hmore : ∀ row ∈ more, row.holder = selfId → AtLeast site.stored row) :
    SiteAhead (published ++ more) selfId site := by
  refine ⟨fun row hrow hself => ?_, h.written, fun index hindex => ?_⟩
  · rcases List.mem_append.mp hrow with hrow | hrow
    · exact h.own row hrow hself
    · exact hmore row hrow hself
  · obtain ⟨row, hget, hle⟩ := h.applied index hindex
    exact ⟨row, getElem?_append_published more hget, hle⟩

theorem SiteAhead.passRead (h : SiteAhead published selfId site) (inputs : LeasePass) :
    SiteAhead published selfId (site.call nowMs published selfId (.passRead inputs)) := by
  rcases call_passRead nowMs published selfId site inputs with heq | ⟨row, -, -, heq⟩ <;> rw [heq]
  · exact h
  · exact ⟨h.own, fun row' hw => absurd hw (by simp), h.applied⟩

theorem SiteAhead.passWrite (h : SiteAhead published selfId site)
    (hok : SiteOk renewSecs nowMs published selfId site) (hund : site.Undisturbed .passWrite) :
    SiteAhead published selfId (site.call nowMs published selfId .passWrite) := by
  rcases call_passWrite nowMs published selfId site with ⟨-, heq⟩ | ⟨read, row, hphase, heq⟩ <;> rw [heq]
  · exact h
  · have hw : AtMost site.stored row := atMost_of_undisturbed (hund read row hphase) (hok.decided read row hphase).2.2
    refine ⟨fun r hr hself => (h.own r hr hself).overwrite hw, fun row' hwr => ?_, fun index hindex => ?_⟩
    · obtain rfl := PassPhase.written.inj hwr
      exact .refl _
    · obtain ⟨r, hget, hle⟩ := h.applied index hindex
      exact ⟨r, hget, hle.overwrite hw⟩

theorem SiteAhead.passPublish (h : SiteAhead published selfId site) :
    SiteAhead (published ++ site.publishes .passPublish) selfId (site.call nowMs published selfId .passPublish) := by
  rcases call_passPublish nowMs published selfId site with ⟨hpub, heq⟩ | ⟨row, hphase, hpub, heq⟩ <;> rw [hpub, heq]
  · exact h.publish [] fun row hrow => absurd hrow (by simp)
  · have hmore : ∀ r ∈ [row], r.holder = selfId → AtLeast site.stored r := by
      intro r hr _
      obtain rfl := List.mem_singleton.mp hr
      exact h.written r hphase
    have hnext := h.publish [row] hmore
    exact ⟨hnext.own, fun row' hw => absurd hw (by simp), hnext.applied⟩

theorem SiteAhead.applyRead (h : SiteAhead published selfId site)
    (hpub : ∀ r ∈ published, leaseFromBody (leaseBody r) = .ok r) (index : Nat) :
    SiteAhead published selfId (site.call nowMs published selfId (.applyRead index)) := by
  rcases call_applyRead nowMs published selfId site index hpub with heq | ⟨row, hget, -, heq⟩ <;> rw [heq]
  · exact h
  · unfold LeaseSite.beginApply
    split_ifs with hsup
    · exact ⟨h.own, h.written, h.applied⟩
    · refine ⟨h.own, h.written, fun k hk => ?_⟩
      rcases List.mem_cons.mp hk with rfl | hk
      · exact ⟨row, hget, atLeast_of_not_supersedes hsup⟩
      · exact h.applied k hk

theorem SiteAhead.applyWrite (h : SiteAhead published selfId site)
    (hok : SiteOk renewSecs nowMs published selfId site) {index : Nat} (hund : site.Undisturbed (.applyWrite index)) :
    SiteAhead published selfId (site.call nowMs published selfId (.applyWrite index)) := by
  rcases call_applyWrite nowMs published selfId site index with
    ⟨-, heq⟩ | ⟨task, hfind, htask, hindex, heq⟩ <;> rw [heq]
  · exact h
  · obtain ⟨hget, hread⟩ := hok.tasks task htask
    have hw : AtMost site.stored task.row := atMost_of_undisturbed (hund task hfind) hread
    refine ⟨fun r hr hself => (h.own r hr hself).overwrite hw, fun row' hwr => (h.written row' hwr).overwrite hw, ?_⟩
    intro k hk
    rcases List.mem_cons.mp hk with rfl | hk
    · exact ⟨task.row, hindex ▸ hget, .refl _⟩
    · obtain ⟨r, hr, hle⟩ := h.applied k hk
      exact ⟨r, hr, hle.overwrite hw⟩

theorem SiteAhead.call (h : SiteAhead published selfId site) (hok : SiteOk renewSecs nowMs published selfId site)
    (hpub : ∀ r ∈ published, SoundRow renewSecs nowMs r) (c : SiteCall) (hund : site.Undisturbed c) :
    SiteAhead (published ++ site.publishes c) selfId
      (site.call nowMs published selfId (c.configured (renewSecs selfId))) := by
  have hnil : ∀ {site' : LeaseSite}, SiteAhead published selfId site' → SiteAhead (published ++ []) selfId site' :=
    fun h' => h'.publish [] fun row hrow => absurd hrow (by simp)
  cases c with
  | passRead inputs => exact hnil (h.passRead _)
  | passWrite => exact hnil (h.passWrite hok hund)
  | passPublish => exact h.passPublish
  | applyRead index => exact hnil (h.applyRead (fun r hr => leaseFromBody_of_sound (hpub r hr)) index)
  | applyWrite index => exact hnil (h.applyWrite hok hund)

theorem SiteOk.grows_iff (hok : SiteOk renewSecs nowMs published selfId site)
    (hpub : ∀ r ∈ published, SoundRow renewSecs nowMs r) (c : SiteCall) :
    (∀ row, site.stored = some row →
      AtLeast (site.call nowMs published selfId (c.configured (renewSecs selfId))).stored row) ↔
      site.Undisturbed c := by
  have hsame : ∀ row, site.stored = some row → AtLeast site.stored row := fun row hrow => ⟨row, hrow, le_refl _⟩
  -- A write of `row` makes the stored row no smaller when that is at most `row`.
  have hwrite : ∀ row, (∀ r, site.stored = some r → AtLeast (some row) r) ↔ AtMost site.stored row := by
    intro row
    exact forall₂_congr fun r _ => atLeast_some_iff
  cases c <;> dsimp only [SiteCall.configured]
  case passRead inputs =>
    refine iff_of_true ?_ trivial
    rcases call_passRead nowMs published selfId site { inputs with leaseRenewSecs := renewSecs selfId } with
      heq | ⟨row, -, -, heq⟩ <;> rw [heq] <;> exact hsame
  case passPublish =>
    refine iff_of_true ?_ trivial
    rcases call_passPublish nowMs published selfId site with ⟨-, heq⟩ | ⟨row, -, -, heq⟩ <;>
      rw [heq] <;> exact hsame
  case applyRead index =>
    refine iff_of_true ?_ trivial
    rcases call_applyRead nowMs published selfId site index (fun r hr => leaseFromBody_of_sound (hpub r hr)) with
      heq | ⟨row, -, -, heq⟩ <;> rw [heq]
    · exact hsame
    · unfold LeaseSite.beginApply
      split_ifs <;> exact hsame
  case passWrite =>
    rcases call_passWrite nowMs published selfId site with ⟨hnot, heq⟩ | ⟨read, row, hphase, heq⟩ <;>
      rw [heq]
    · exact iff_of_true hsame fun read row hphase => absurd hphase (hnot read row)
    · rw [hwrite]
      constructor
      · intro hle read' row' hphase'
        rw [hphase] at hphase'
        obtain ⟨rfl, rfl⟩ := PassPhase.decided.inj hphase'
        exact .inr hle
      · intro hund
        exact atMost_of_undisturbed (hund read row hphase) (hok.decided read row hphase).2.2
  case applyWrite index =>
    rcases call_applyWrite nowMs published selfId site index with ⟨hnone, heq⟩ | ⟨task, hfind, htask, -, heq⟩ <;>
      rw [heq]
    · refine iff_of_true hsame fun task hfind => ?_
      rw [hnone] at hfind
      exact absurd hfind (by simp)
    · rw [hwrite]
      constructor
      · intro hle task' hfind'
        rw [hfind] at hfind'
        obtain rfl := Option.some.inj hfind'
        exact .inr hle
      · intro hund
        exact atMost_of_undisturbed (hund task hfind) (hok.tasks task htask).2

end Site

/-! ### The controllers together -/

namespace LeaseNet

variable {renewSecs : String → Int} {s : LeaseNet}

structure Ok (renewSecs : String → Int) (s : LeaseNet) : Prop where
  sites : ∀ c, SiteOk renewSecs s.nowMs s.published c (s.sites c)
  published : ∀ row ∈ s.published, SoundRow renewSecs s.nowMs row

def Ahead (s : LeaseNet) : Prop := ∀ c, SiteAhead s.published c (s.sites c)

theorem ok_start (nowMs : Int) : (start nowMs).Ok renewSecs := by
  constructor
  · intro c
    refine ⟨?_, ?_, ?_, ?_⟩ <;> simp [start]
  · simp [start]

theorem ahead_start (nowMs : Int) : (start nowMs).Ahead := by
  intro c
  refine ⟨?_, ?_, ?_⟩ <;> simp [start]

theorem Ok.publishes (h : s.Ok renewSecs) {selfId : String} {c : SiteCall} {row : ClusterLeaseRow}
    (hrow : row ∈ (s.sites selfId).publishes c) : row.holder = selfId ∧ SoundRow renewSecs s.nowMs row := by
  cases c with
  | passPublish =>
    rcases call_passPublish s.nowMs s.published selfId (s.sites selfId) with ⟨hpub, -⟩ | ⟨row', hphase, hpub, -⟩
    · rw [hpub] at hrow
      exact absurd hrow (by simp)
    · rw [hpub] at hrow
      obtain rfl := List.mem_singleton.mp hrow
      exact (h.sites selfId).written row hphase
  | _ => exact absurd hrow (by simp [LeaseSite.publishes])

theorem Ok.step (h : s.Ok renewSecs) (hterms : s.TermsFit) (a : NetAction) : (s.step renewSecs a).Ok renewSecs := by
  cases a with
  | tick ms =>
    have hle : s.nowMs ≤ s.nowMs + ms := by omega
    exact ⟨fun c => (h.sites c).mono hle, fun row hrow => (h.published row hrow).mono hle⟩
  | call selfId c =>
    refine ⟨fun other => ?_, fun row hrow => ?_⟩
    · show SiteOk renewSecs s.nowMs _ other (Function.update s.sites selfId _ other)
      by_cases hother : other = selfId
      · subst hother
        rw [Function.update_self]
        exact (h.sites other).call h.published (hterms other) c
      · rw [Function.update_of_ne hother]
        exact (h.sites other).publish _
    · rcases List.mem_append.mp hrow with hrow | hrow
      · exact h.published row hrow
      · exact (h.publishes hrow).2

theorem Ahead.step (h : s.Ahead) (hok : s.Ok renewSecs) {a : NetAction} (hund : s.Undisturbed a) :
    (s.step renewSecs a).Ahead := by
  cases a with
  | tick ms => exact h
  | call selfId c =>
    intro other
    show SiteAhead _ other (Function.update s.sites selfId _ other)
    by_cases hother : other = selfId
    · subst hother
      rw [Function.update_self]
      exact (h other).call (hok.sites other) hok.published c hund
    · rw [Function.update_of_ne hother]
      refine (h other).publish _ fun row hrow hself => ?_
      exact absurd (hself.symm.trans (hok.publishes hrow).1) hother

theorem grows_iff (hok : s.Ok renewSecs) (a : NetAction) : s.Grows renewSecs a ↔ s.Undisturbed a := by
  cases a with
  | tick ms => exact iff_of_true (fun c row hrow => ⟨row, hrow, le_refl _⟩) trivial
  | call selfId c =>
    refine Iff.trans ?_ ((hok.sites selfId).grows_iff hok.published c)
    constructor
    · intro hgrows row hrow
      have hself := hgrows selfId row hrow
      rwa [show ((s.step renewSecs (.call selfId c)).sites selfId) = _ from Function.update_self ..] at hself
    · intro hgrows other row hrow
      by_cases hother : other = selfId
      · subst hother
        rw [show ((s.step renewSecs (.call other c)).sites other) = _ from Function.update_self ..]
        exact hgrows row hrow
      · rw [show ((s.step renewSecs (.call selfId c)).sites other) = _ from Function.update_of_ne hother ..]
        exact ⟨row, hrow, le_refl _⟩

theorem TermsFit.call (h : s.TermsFit) (renewSecs : String → Int) (selfId : String) (c : SiteCall)
    (hself : ∀ row ∈ ((s.step renewSecs (.call selfId c)).sites selfId).stored, row.term < i64Max) :
    (s.step renewSecs (.call selfId c)).TermsFit := by
  intro other row hrow
  by_cases hother : other = selfId
  · subst hother
    exact hself row hrow
  · rw [show ((s.step renewSecs (.call selfId c)).sites other) = _ from Function.update_of_ne hother ..] at hrow
    exact h other row hrow

theorem stored_eq_argmax (hok : s.Ok renewSecs) (hahead : s.Ahead) {members : List String} (hs : s.Settled members)
    {c : String} (hc : c ∈ members) :
    (s.sites c).stored.map (·.view) = (s.published.map (·.view)).argmax id := by
  obtain ⟨hpublished, happlied⟩ := hs c hc
  have hle : ∀ row ∈ s.published, AtLeast (s.sites c).stored row := by
    intro row hrow
    by_cases hself : row.holder = c
    · exact (hahead c).own row hrow hself
    · obtain ⟨index, hindex⟩ := List.mem_iff_getElem?.mp hrow
      obtain ⟨row', hget, hle⟩ := (hahead c).applied index (happlied index row hindex hself)
      rw [hindex] at hget
      exact Option.some.inj hget ▸ hle
  cases hstored : (s.sites c).stored with
  | none =>
    have hnil : s.published = [] := by
      refine List.eq_nil_iff_forall_not_mem.mpr fun row hrow => ?_
      obtain ⟨r, hr, -⟩ := hle row hrow
      rw [hstored] at hr
      exact absurd hr (by simp)
    rw [hnil]
    rfl
  | some r =>
    have hmem : r ∈ s.published := (((hok.sites c).stored r hstored).2).resolve_right (hpublished r)
    have hmax : ∀ row ∈ s.published, row.view ≤ r.view := by
      intro row hrow
      have hrow' := hle row hrow
      rw [hstored] at hrow'
      exact atLeast_some_iff.mp hrow'
    symm
    rw [Option.map_some]
    refine List.mem_argmax_iff.mpr ⟨List.mem_map_of_mem hmem, fun view hview => ?_, fun view hview hge => ?_⟩
    · obtain ⟨row, hrow, rfl⟩ := List.mem_map.mp hview
      exact hmax row hrow
    · obtain ⟨row, hrow, rfl⟩ := List.mem_map.mp hview
      rw [le_antisymm (hmax row hrow) hge]

end LeaseNet

/-- **The stored lease.** From controllers that have stored nothing, no database call makes a stored lease
smaller exactly when no write is disturbed; and then, once everything published is applied, every controller
stores the greatest lease published. -/
theorem stored_lease_iff (renewSecs : String → Int) (nowMs : Int) (acts : List NetAction)
    (hterms : Machine.Along (LeaseNet.step renewSecs) LeaseNet.TermsFit (.start nowMs) acts) :
    (Machine.Each (LeaseNet.step renewSecs) (LeaseNet.Grows renewSecs) (.start nowMs) acts ↔
      Machine.Each (LeaseNet.step renewSecs) LeaseNet.Undisturbed (.start nowMs) acts) ∧
    (Machine.Each (LeaseNet.step renewSecs) LeaseNet.Undisturbed (.start nowMs) acts →
      ∀ members, (Machine.run (LeaseNet.step renewSecs) (.start nowMs) acts).Settled members → ∀ c ∈ members,
        (((Machine.run (LeaseNet.step renewSecs) (.start nowMs) acts).sites c).stored.map (·.view)) =
          ((Machine.run (LeaseNet.step renewSecs) (.start nowMs) acts).published.map (·.view)).argmax id) := by
  constructor
  · have hok : Machine.Along (LeaseNet.step renewSecs) (LeaseNet.Ok renewSecs) (.start nowMs) acts :=
      Machine.along_of_each (LeaseNet.ok_start nowMs) (fun s a h ht => h.step ht a) hterms.each
    exact Machine.each_congr hok.each fun s a h => LeaseNet.grows_iff h a
  · intro hund members hsettled c hc
    have hinv : Machine.Along (LeaseNet.step renewSecs) (fun s => s.Ok renewSecs ∧ s.Ahead) (.start nowMs) acts := by
      refine Machine.along_of_each ⟨LeaseNet.ok_start nowMs, LeaseNet.ahead_start nowMs⟩ ?_ (hterms.each.and hund)
      rintro s a ⟨hok, hahead⟩ ⟨ht, hu⟩
      exact ⟨hok.step ht a, hahead.step hok hu⟩
    exact LeaseNet.stored_eq_argmax hinv.last.1 hinv.last.2 hsettled hc

/-- One controller claims the lease, and the other one applies it. -/
def firstClaim : List NetAction :=
  [.call "ctrl-a" (.passRead readyPass), .call "ctrl-a" .passWrite, .call "ctrl-a" .passPublish,
    .call "ctrl-b" (.applyRead 0), .call "ctrl-b" (.applyWrite 0)]

theorem termsFit_firstClaim :
    Machine.Along (LeaseNet.step fun _ => 5) LeaseNet.TermsFit (.start 1000) firstClaim := by
  have hstart : (LeaseNet.start 1000).TermsFit := fun c row h => absurd h (by simp [LeaseNet.start])
  have hread := hstart.call (fun _ => 5) "ctrl-a" (.passRead readyPass) (by decide)
  have hwrite := hread.call (fun _ => 5) "ctrl-a" .passWrite (by decide)
  have hpublish := hwrite.call (fun _ => 5) "ctrl-a" .passPublish (by decide)
  have happly := hpublish.call (fun _ => 5) "ctrl-b" (.applyRead 0) (by decide)
  exact ⟨hstart, hread, hwrite, hpublish, happly, happly.call (fun _ => 5) "ctrl-b" (.applyWrite 0) (by decide)⟩

def claimed : LeaseNet := Machine.run (LeaseNet.step fun _ => 5) (.start 1000) firstClaim

theorem settled_claimed : claimed.Settled ["ctrl-a", "ctrl-b"] := by
  have hpublished : claimed.published = [⟨"failover", "ctrl-a", 16000, 1⟩] := rfl
  intro c hc
  rw [hpublished]
  obtain rfl | rfl : c = "ctrl-a" ∨ c = "ctrl-b" := by simpa using hc
  · refine ⟨fun row h => PassPhase.noConfusion h, fun index row hrow hother => absurd ?_ hother⟩
    rw [List.mem_singleton.mp (List.mem_of_getElem? hrow)]
  · refine ⟨fun row h => PassPhase.noConfusion h, fun index row hrow _ => ?_⟩
    obtain rfl : index = 0 := Nat.lt_one_iff.mp (List.getElem?_eq_some_iff.mp hrow).1
    exact List.mem_cons_self

/-- Both controllers store the greatest lease published. -/
theorem first_claim_is_stored :
    (claimed.sites "ctrl-a").stored.map (·.view) = (claimed.published.map (·.view)).argmax id ∧
    (claimed.sites "ctrl-b").stored.map (·.view) = (claimed.published.map (·.view)).argmax id := by
  have hund : Machine.Each (LeaseNet.step fun _ => 5) LeaseNet.Undisturbed (.start 1000) firstClaim := by
    refine ⟨trivial, fun read row hphase => .inl ?_, trivial, trivial, fun task htask => .inl ?_, trivial⟩
    · obtain ⟨rfl, -⟩ := PassPhase.decided.inj hphase
      rfl
    · rw [← Option.some.inj htask]
      rfl
  have h := (stored_lease_iff (fun _ => 5) 1000 firstClaim termsFit_firstClaim).2 hund _ settled_claimed
  exact ⟨h "ctrl-a" (by simp), h "ctrl-b" (by simp)⟩

/-- A lease of the other controller arrives between the read and the write of a pass, and the pass stores the
smaller row over it. -/
theorem interrupted_pass_lowers_lease :
    ¬ Machine.Each (LeaseNet.step fun _ => 5) (LeaseNet.Grows fun _ => 5) (.start 1000)
      [.call "ctrl-a" (.passRead readyPass), .call "ctrl-b" (.passRead readyPass), .call "ctrl-b" .passWrite,
        .call "ctrl-b" .passPublish, .call "ctrl-a" (.applyRead 0), .call "ctrl-a" (.applyWrite 0),
        .call "ctrl-a" .passWrite] := by
  intro h
  obtain ⟨r, hr, hle⟩ := h.2.2.2.2.2.2.1 "ctrl-a" ⟨"failover", "ctrl-b", 16000, 1⟩ (by decide)
  obtain rfl : r = ⟨"failover", "ctrl-a", 16000, 1⟩ := (Option.some.inj hr).symm
  exact absurd hle (by decide)

end Kcore
