import Kcore.Pki.Programs

/-!
# A revocation sticks at once

A request that revokes a certificate puts its serial into the set in memory before it returns. A refresh replaces that
set by what it has read from the database before. As long as no refresh stores a set that lacks a serial of the set it
replaces, every serial whose revocation has returned is refused. A refresh that reads the database before a revocation
and stores its set after it forgets the serial.
-/

namespace Kcore.Pki

open Keyed Machine Process

/-! ### Revoking under a contract -/

def Call.storesCrl : Call → Bool
  | .putCrlState _ _ | .cacheSet _ => true
  | _ => false

/-- A contract for the calls, which asks nothing of those that store no CRL. -/
structure ForCalls (C : Contract Call Call.Resp World Choice) : Prop where
  act : C.act = Pki.act
  good : ∀ w e c, e.storesCrl = false → C.good w e c

/-- What becomes of a serial under a contract: it is issued, then marked in the database, and then put into memory. `B`
is what a request starts with. -/
structure Revokes (C : Contract Call Call.Resp World Choice) (B : World → Prop)
    (Issued Marked Done : Nat → World → Prop) :
    Prop extends ForCalls C where
  base : Stable C B
  stable_issued : ∀ serial, Stable C (Issued serial)
  stable_marked : ∀ serial, Stable C (Marked serial)
  stable_done : ∀ serial, Stable C (Done serial)
  issued : ∀ {w serial}, w.inv.rows.has serial = true → Issued serial w
  mark : ∀ {w serial}, Issued serial w → Marked serial { w with inv := w.inv.markRevoked serial }
  insert : ∀ {w serial}, Marked serial w →
    Done serial { w with memory := { w.memory with serials := serial :: w.memory.serials } }
  roll : ∀ cfg, Triple C B (ensureCurrent cfg true).run fun _ _ => True

theorem fails_of_orError {α : Type} {c : Choice} {a b : α} (h : c.orError a = .ok b) : c.fails = none := by
  unfold Choice.orError at h
  split at h
  · cases h
  · assumption

theorem value_of_orError {α : Type} {c : Choice} {a b : α} (h : c.orError a = .ok b) : b = a := by
  rw [Choice.orError, fails_of_orError h] at h
  cases h
  rfl

private theorem has_of_mem {t : Table CertRow.serial} {r : CertRow} (h : r ∈ t.rows) : t.has r.serial = true := by
  simp [Table.has, Table.get_of_mem h]

section

variable {C : Contract Call Call.Resp World Choice} (h : ForCalls C)

include h

theorem ForCalls.look {e : Call} {P : World → Prop} {A : e.Resp → World → Prop} (he : e.storesCrl = false)
    (hP : Stable C P) (hA : ∀ r, Stable C (A r)) (hanswer : ∀ w c, P w → A (Pki.act e c w).1 (Pki.act e c w).2) :
    Triple C P (call e) A := by
  refine Triple.ask hP hA fun w c hw _ => ⟨h.good w e c he, ?_⟩
  rw [h.act]
  exact hanswer w c hw

theorem ForCalls.plain {e : Call} {P : World → Prop} (he : e.storesCrl = false) (hP : Stable C P) :
    Triple C P (call e) fun _ => P := .plain hP fun w c _ => h.good w e c he

end

namespace Revokes

variable {C : Contract Call Call.Resp World Choice} {B : World → Prop} {Issued Marked Done : Nat → World → Prop}
  (h : Revokes C B Issued Marked Done)

include h

private theorem bySerial (serial : Nat) : Tries C (Issued serial) (revokeCertificateBySerial serial)
    fun found w => Marked serial w ∧ ∀ row, found = some row → row.serial = serial := by
  have hmark : Tries C (Issued serial) (attempt (call (.markRevoked serial))) fun _ => Marked serial := by
    refine h.look (e := .markRevoked serial) rfl (h.stable_issued serial) (Stable.ok fun _ => h.stable_marked serial)
      fun w c hw a ha => ?_
    change Marked serial (c.orKeep w { w with inv := w.inv.markRevoked serial })
    rw [Choice.orKeep, if_pos (fails_of_orError ha)]
    exact h.mark hw
  refine hmark.bind fun _ => h.look (e := .getIssued serial) rfl (h.stable_marked serial) (Stable.ok fun found =>
    (h.stable_marked serial).and fun _ _ _ hw => hw) fun w c hw found hr => ⟨hw, ?_⟩
  rw [value_of_orError hr]
  exact fun row hrow => Table.key_of_get hrow

private theorem inserted (serial : Nat) :
    Triple C (Marked serial) (call (.insertRevoked serial)) fun _ => Done serial :=
  h.look rfl (h.stable_marked serial) (fun _ => h.stable_done serial) fun _ _ => h.insert

private theorem all (serials : List Nat) : Tries C (fun w => ∀ s ∈ serials, Issued s w) (revokeAll serials)
    fun revoked w => ∀ s ∈ revoked, Done s w := by
  induction serials with
  | nil => exact .ret (.forall h.stable_issued []) fun _ _ => by simp
  | cons serial rest ih =>
    have hrest := Stable.forall h.stable_issued rest
    refine (((h.bySerial serial).frame hrest).conseq (fun w hw => List.forall_mem_cons.mp hw) fun _ _ hw => hw).bind
      fun found => ?_
    cases found with
    | none => exact ih.conseq (fun _ hw => hw.2) fun _ _ hw => hw
    | some row =>
      have hrow := h.stable_done row.serial
      refine (((Tries.lift (h.inserted row.serial) fun _ => hrow).frame hrest).conseq (fun w hw => ?_)
        fun _ _ hw => hw.symm).bind fun _ => (ih.frame hrow).bind fun revoked => ?_
      · exact ⟨hw.1.2 row rfl ▸ hw.1.1, hw.2⟩
      · exact .ret ((Stable.forall h.stable_done revoked).and hrow) fun w hw => List.forall_mem_cons.mpr hw.symm

private theorem each (rows : List CertRow) : Triple C (fun w => ∀ r ∈ rows, Issued r.serial w) (revokeEach rows)
    fun revoked w => ∀ s ∈ revoked, Done s w := by
  induction rows with
  | nil => exact .ret (.forall (fun r : CertRow => h.stable_issued r.serial) []) fun _ _ => by simp
  | cons row rest ih =>
    have hrest := Stable.forall (fun r : CertRow => h.stable_issued r.serial) rest
    have hrow := h.stable_done row.serial
    -- an error leaves the rest of the rows to be tried, so what is known of them is kept in any case
    refine ((Triple.frame (h.bySerial row.serial) hrest).conseq (fun w hw => List.forall_mem_cons.mp hw)
      fun _ _ hw => hw).bind fun found => ?_
    match found with
    | .error _ | .ok none => exact ih.conseq (fun _ hw => hw.2) fun _ _ hw => hw
    | .ok (some _) =>
      refine (((h.inserted row.serial).frame hrest).conseq (fun w hw => ⟨(hw.1 _ rfl).1, hw.2⟩)
        fun _ _ hw => hw.symm).bind fun _ => (ih.frame hrow).bind fun revoked => ?_
      exact .ret ((Stable.forall h.stable_done revoked).and hrow) fun w hw => List.forall_mem_cons.mpr hw.symm

private theorem found (subjectCn nodeId : String) :
    Tries C (fun _ => True) (attempt (call (.findRevocable subjectCn nodeId)))
    fun serials w => ∀ s ∈ serials, Issued s w := by
  refine h.look (e := .findRevocable subjectCn nodeId) rfl (fun _ _ _ _ => trivial) (Stable.ok fun serials =>
    .forall h.stable_issued serials) fun w c _ serials hr s hs => h.issued ?_
  rw [value_of_orError hr] at hs
  obtain ⟨row, hrow, rfl⟩ := List.mem_map.mp hs
  exact has_of_mem (List.mem_filter.mp hrow).1

private theorem targets (target : Target) : Tries C (fun _ => True) (resolveRevocationTargets target)
    fun serials w => ∀ s ∈ serials, Issued s w := by
  cases target with
  | serial serial =>
    have hstable : ∀ found : Option CertRow, Stable C fun w => ∀ s ∈ found.toList.map CertRow.serial, Issued s w :=
      fun found => .forall h.stable_issued _
    refine Tries.bind (h.look (e := .getIssued serial) rfl (fun _ _ _ _ => trivial) (Stable.ok hstable)
      fun w c _ found hr s hs => h.issued ?_) fun found => .ret (hstable found) fun _ hw => hw
    obtain ⟨row, hrow, rfl⟩ := List.mem_map.mp hs
    rw [value_of_orError hr] at hrow
    exact has_of_mem (Table.mem_of_get (Option.mem_toList.mp hrow))
  | identity subjectCn nodeId => exact Tries.ite (fun _ => .throw _) fun _ => h.found _ _

private theorem rolled (cfg : PkiConfig) (serials : List Nat) : Tries C (fun w => (∀ s ∈ serials, Issued s w) ∧ B w)
    (revokeAll serials >>= rollCrl cfg) fun revoked w => ∀ s ∈ revoked, Done s w := by
  refine ((h.all serials).frame h.base).bind fun revoked => ?_
  have hdone := Stable.forall h.stable_done revoked
  have htrue : Stable C fun _ => True := fun _ _ _ _ => trivial
  refine ((Tries.lift ((h.roll cfg).frame hdone) fun _ => htrue.and hdone).conseq (fun _ hw => hw.symm)
    fun _ _ hw => hw.2).bind fun _ => .ret hdone fun _ hw => hw

theorem certificate (cfg : PkiConfig) (reason : Int) (target : Target) :
    Tries C B (revokeCertificate cfg reason target) fun revoked w => ∀ s ∈ revoked, Done s w := by
  refine Tries.ite (fun _ => .throw _) fun _ => ?_
  refine (((h.targets target).frame h.base).conseq (fun _ hw => ⟨trivial, hw⟩) fun _ _ hw => hw).bind fun serials => ?_
  exact Tries.ite (fun _ => .throw _) fun _ => h.rolled cfg serials

theorem nodeCertificates (cfg : PkiConfig) (nodeId : String) :
    Tries C B (revokeNodeCertificates cfg nodeId) fun revoked w => ∀ s ∈ revoked, Done s w :=
  (((h.found "" nodeId).frame h.base).conseq (fun _ hw => ⟨trivial, hw⟩) fun _ _ hw => hw).bind (h.rolled cfg)

theorem superseded (cfg : PkiConfig) :
    Triple C (fun _ => True) (revokeSuperseded cfg) fun revoked w => ∀ s ∈ revoked, Done s w := by
  have htrue : Stable C fun _ => True := fun _ _ _ _ => trivial
  have hnothing : Triple C (fun _ => True) (pure []) fun revoked w => ∀ s ∈ revoked, Done s w :=
    .ret htrue fun _ _ => by simp
  refine (h.plain (e := .now) rfl htrue).bind fun now => (h.plain (e := .takeSeen) rfl htrue).bind fun seen =>
    (h.plain (e := .markSeen seen now) rfl htrue).bind fun _ => ?_
  split
  · exact hnothing
  · refine Triple.bind (h.look (e := .listSuperseded _ now) rfl (fun _ _ _ _ => trivial) (Stable.ok fun rows =>
      .forall (fun r : CertRow => h.stable_issued r.serial) rows) fun w c _ rows hr r hrow => h.issued ?_) fun r => ?_
    · rw [value_of_orError hr] at hrow
      exact has_of_mem (List.mem_filter.mp hrow).1
    match r with
    | .error _ => exact hnothing.conseq (fun _ _ => trivial) fun _ _ hw => hw
    | .ok rows => exact (h.each rows).conseq (fun _ hw => hw rows rfl) fun _ _ hw => hw

theorem settled {p : Program (List Nat)} {P : World → Prop} {Q : Except String Outcome → World → Prop}
    (hp : Tries C P p fun revoked w => ∀ s ∈ revoked, Done s w)
    (hQ : ∀ r w, (∀ out, r = .ok out → out.crl = none ∧ ∀ s ∈ out.revoked, Done s w) → Q r w) :
    Triple C P (ExceptT.run do return (⟨← p, none⟩ : Outcome)) Q :=
  Triple.conseq (Tries.bind hp fun revoked => .ret (.forall h.stable_done revoked) fun _ hw => ⟨rfl, hw⟩)
    (fun _ hw => hw) hQ

end Revokes

/-! ### The set in memory -/

/-- A refresh stores a set with all serials that were put into memory since it has read the database. -/
def Keeping (w : World) : Call → Prop
  | .storeSerials serials => ∀ serial ∈ w.memory.serials, serial ∈ serials
  | _ => True

instance (w : World) : (e : Call) → Decidable (Keeping w e)
  | .storeSerials serials => inferInstanceAs (Decidable (∀ serial ∈ w.memory.serials, serial ∈ serials))
  | .findRevocable _ _ | .getIssued _ | .markRevoked _ | .insertRevoked _ | .listSuperseded _ _ | .revokedSerialSet
  | .takeSeen | .markSeen _ _ | .subCa | .now | .listRevoked | .getCrlState | .cacheGet | .sign | .putCrlState _ _
  | .cacheSet _ => inferInstanceAs (Decidable True)

def Remembers (w w' : World) : Prop := ∀ serial ∈ w.memory.serials, serial ∈ w'.memory.serials

private theorem remembers_act {w : World} {e : Call} (c : Choice) (h : Keeping w e) : Remembers w (act e c w).2 := by
  intro serial hs
  cases e with
  | insertRevoked other => exact List.mem_cons_of_mem other hs
  | storeSerials serials => exact h serial hs
  | markRevoked _ | markSeen _ _ | putCrlState _ _ =>
    simp only [act, Choice.orKeep]
    split <;> exact hs
  | _ => exact hs

def contract : Contract Call Call.Resp World Choice where
  act := act
  rely := Remembers
  allowed w e _ := Keeping w e
  good _ _ _ := True
  refl _ _ h := h
  trans _ _ _ h h' serial hs := h' serial (h serial hs)
  keeps _ _ c h _ := remembers_act c h

private theorem triple_any {α : Type} (p : Process Call Call.Resp α) :
    Triple contract (fun _ => True) p fun _ _ => True :=
  .of_all (.of_forall (fun _ _ _ _ => trivial) p)

private theorem revokes_memory : Revokes contract (fun _ => True) (fun _ _ => True) (fun _ _ => True)
    fun serial w => serial ∈ w.memory.serials where
  act := rfl
  good _ _ _ _ := trivial
  base _ _ _ _ := trivial
  stable_issued _ _ _ _ _ := trivial
  stable_marked _ _ _ _ _ := trivial
  stable_done serial _ _ h := h serial
  issued _ := trivial
  mark _ := trivial
  insert _ := List.mem_cons_self
  roll _ := triple_any _

def Recalled (r : Except String Outcome) (w : World) : Prop :=
  ∀ out, r = .ok out → ∀ serial ∈ out.revoked, serial ∈ w.memory.serials

private theorem triple_program (cfg : PkiConfig) (request : Request) :
    Triple contract (fun _ => True) (request.program cfg) Recalled := by
  have hrecalled : ∀ r w, (∀ out, r = .ok out → out.crl = none ∧ ∀ s ∈ out.revoked, s ∈ w.memory.serials) →
    Recalled r w :=
    fun r w h out hr => (h out hr).2
  have hnothing : ∀ {α : Type} (p : Program α) (f : α → Outcome), (∀ a, (f a).revoked = []) →
      Tries contract (fun _ => True) (do return f (← p))
        fun out w => ∀ serial ∈ out.revoked, serial ∈ w.memory.serials :=
    fun p f hf => Tries.bind ((triple_any p).conseq (fun _ h => h) fun _ _ h _ _ => h) fun a =>
      .ret (fun _ _ _ _ => trivial) fun _ _ => by simp [hf a]
  cases request with
  | revokeCertificate reason target =>
    exact revokes_memory.settled (revokes_memory.certificate cfg reason target) hrecalled
  | revokeNodeCertificates nodeId => exact revokes_memory.settled (revokes_memory.nodeCertificates cfg nodeId) hrecalled
  | revokeSuperseded =>
    exact revokes_memory.settled (.lift (revokes_memory.superseded cfg) fun revoked =>
      .forall revokes_memory.stable_done revoked) hrecalled
  | refresh => exact hnothing _ (fun _ => ⟨[], none⟩) fun _ => rfl
  | ensureCurrent => exact hnothing _ (fun crl => ⟨[], crl⟩) fun _ => rfl

/-! ### Runs -/

theorem mem_confirmed {s : System} {serial : Nat} :
    serial ∈ s.confirmed ↔ ∃ t out, (t, ret (.ok out)) ∈ s.tasks ∧ serial ∈ out.revoked := by
  unfold System.confirmed
  rw [List.mem_flatMap]
  constructor
  · rintro ⟨⟨t, p⟩, ht, hs⟩
    split at hs
    · rename_i out hp
      exact ⟨t, out, hp ▸ ht, hs⟩
    · exact absurd hs List.not_mem_nil
  · rintro ⟨t, out, ht, hs⟩
    exact ⟨(t, ret (.ok out)), ht, hs⟩

/-- The process is not restarted, and each set that a refresh stores has all serials of the set it replaces. -/
def KeepsSerials (s : System) : Action → Prop
  | .call task _ => match Pool.next s task with
    | some e => Keeping s.state e
    | none => True
  | .restart _ => False
  | _ => True

instance (s : System) : (a : Action) → Decidable (KeepsSerials s a)
  | .call task _ => match h : Pool.next s task with
    | some e => decidable_of_iff (Keeping s.state e) (by simp [KeepsSerials, h])
    | none => .isTrue (by simp [KeepsSerials, h])
  | .restart _ => inferInstanceAs (Decidable False)
  | .start _ | .recordSigned _ | .present _ | .rotateSubCa _ => inferInstanceAs (Decidable True)

private theorem fine_step (cfg : PkiConfig) {s : System} {a : Action} (h : s.Fine contract fun _ => Recalled)
    (ha : KeepsSerials s a) : (s.step cfg a).Fine contract fun _ => Recalled := by
  cases a with
  | start request => exact h.start (triple_program cfg request s.state trivial)
  | call task c =>
    have hkeeping : ∀ e, Pool.next s task = some e → Keeping s.state e := by
      intro e he
      simpa [KeepsSerials, he] using ha
    exact Pool.Fine.advance (C := contract) h hkeeping
  | recordSigned | present | rotateSubCa => exact h.change fun _ hs => hs
  | restart c => exact ha.elim

/-- From any state in which no task runs, a serial whose revocation has returned is refused. -/
theorem revocation_sticks (cfg : PkiConfig) (w : World) (acts : List Action)
    (h : Each (System.step cfg) KeepsSerials ⟨w, []⟩ acts) :
    Along (System.step cfg) (fun s => ∀ serial ∈ s.confirmed, ∀ policy now,
      decideRevoked policy s.state.memory serial now = .revoked serial) ⟨w, []⟩ acts := by
  have hfine : Along (System.step cfg) (fun s => s.Fine contract fun _ => Recalled) ⟨w, []⟩ acts :=
    along_of_each (fun t ht => absurd ht List.not_mem_nil) (fun s a => fine_step cfg) h
  refine hfine.mono fun s hs serial hserial policy now => decideRevoked_of_mem ?_ now
  obtain ⟨t, out, ht, hout⟩ := mem_confirmed.mp hserial
  exact hs.result ht out rfl serial hout

def nodeRow : CertRow := ⟨7, "kcore-node-10.0.0.1", .node, "node-a", 2000, false, none⟩

def oneCertificate : World :=
  ⟨⟨Table.empty.put nodeRow, []⟩, ⟨[], some 0⟩, none, none, none, [], [], []⟩

def dailyPki : PkiConfig := ⟨86400, 21600, 86400⟩

def calls (task n : Nat) : List Action := List.replicate n (.call task ⟨none, 100⟩)

theorem revoked_and_refreshed :
    7 ∈ (run (System.step dailyPki) ⟨oneCertificate, []⟩ (.start (.revokeCertificate 1 (.serial 7)) :: calls 0 5 ++
      .start .refresh :: calls 1 2)).confirmed ∧
    ∀ policy now, decideRevoked policy (run (System.step dailyPki) ⟨oneCertificate, []⟩
      (.start (.revokeCertificate 1 (.serial 7)) :: calls 0 5 ++ .start .refresh :: calls 1 2)).state.memory 7 now =
        .revoked 7 := by
  have hconfirmed : 7 ∈ (run (System.step dailyPki) ⟨oneCertificate, []⟩
      (.start (.revokeCertificate 1 (.serial 7)) :: calls 0 5 ++ .start .refresh :: calls 1 2)).confirmed := by decide
  exact ⟨hconfirmed, (revocation_sticks dailyPki oneCertificate _ (by decide)).last 7 hconfirmed⟩

/-- The refresh reads before the revocation and stores after it: the check allows the revoked serial. -/
theorem refresh_forgets_revocation :
    7 ∈ (run (System.step dailyPki) ⟨oneCertificate, []⟩ (.start .refresh :: calls 0 1 ++
      .start (.revokeCertificate 1 (.serial 7)) :: calls 1 5 ++ calls 0 1)).confirmed ∧
    decideRevoked ⟨.hardFail, 300⟩ (run (System.step dailyPki) ⟨oneCertificate, []⟩ (.start .refresh :: calls 0 1 ++
      .start (.revokeCertificate 1 (.serial 7)) :: calls 1 5 ++ calls 0 1)).state.memory 7 200 = .allow := by
  decide

end Kcore.Pki
