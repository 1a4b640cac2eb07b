import Kcore.Pki.Revocation

/-!
# The CRLs of a controller

Every CRL lists the serials that were revoked when its call read the database, and these lists are initial parts of one
another. So a CRL that is as long as the list a call has read is that list, and what a call returns is complete. A CRL
is numbered from the one that its call took for the current one. If that is still the stored one when the new one is
stored, the numbers increase; two calls that overlap give one number to two lists.
-/

namespace Kcore.Pki

open Keyed Machine Process

/-- The CRLs that are in force list an initial part of the serials that are revoked. -/
def Sound (w : World) : Prop := ∀ crl, w.cache = some crl ∨ w.crlState = some crl → crl.serials <+: w.inv.revoked

/-- What a task relies on: nothing that was revoked, issued or stored is forgotten. -/
structure Grows (w w' : World) : Prop where
  revoked : w.inv.revoked <+: w'.inv.revoked
  issued : ∀ serial, w.inv.rows.has serial = true → w'.inv.rows.has serial = true
  stored : ∀ crl ∈ w.stored, crl ∈ w'.stored
  sound : Sound w → Sound w'

def WellMade (w : World) : Call → Prop
  | .putCrlState base crl => crl.crlNumber = (base.map (·.crlNumber + 1)).getD 1 ∧ crl.serials <+: w.inv.revoked
  | .cacheSet crl => crl.serials <+: w.inv.revoked ∧ crl ∈ w.stored
  | _ => True

private theorem Grows.refl (w : World) : Grows w w := ⟨List.prefix_rfl, fun _ h => h, fun _ h => h, fun h => h⟩

variable {w : World} {s : System}

private theorem Sound.of_prefix {w' : World} (h : Sound w) (hcache : w'.cache = w.cache)
    (hstate : w'.crlState = w.crlState) (hrevoked : w.inv.revoked <+: w'.inv.revoked) : Sound w' := by
  intro crl hcrl
  rw [hcache, hstate] at hcrl
  exact (h crl hcrl).trans hrevoked

private theorem has_update {t : Table CertRow.serial} {p : CertRow → Bool} {f : CertRow → CertRow}
    (hf : ∀ r, (f r).serial = r.serial) (serial : Nat) : (t.update p f hf).has serial = t.has serial := by
  simp [Table.has, Table.get_update]

private theorem grows_act {e : Call} (c : Choice) (h : WellMade w e) : Grows w (act e c w).2 := by
  cases e with
  | markRevoked serial =>
    simp only [act, Choice.orKeep]
    split
    · have hrevoked := w.inv.revoked_markRevoked serial
      exact ⟨hrevoked, fun s hs => by simpa using hs, fun _ h => h, fun hs => hs.of_prefix rfl rfl hrevoked⟩
    · exact .refl w
  | markSeen serials now =>
    simp only [act, Choice.orKeep]
    split
    · refine ⟨List.prefix_rfl, fun s hs => ?_, fun _ h => h, fun hs => hs⟩
      simpa only [Inventory.markSeen, has_update] using hs
    · exact .refl w
  | putCrlState base crl =>
    simp only [act, Choice.orKeep]
    split
    · refine ⟨List.prefix_rfl, fun _ h => h, fun _ h => List.mem_append_left _ h, fun hs other hother => ?_⟩
      rcases hother with hother | hother
      · exact hs other (.inl hother)
      · cases hother
        exact h.2
    · exact .refl w
  | cacheSet crl =>
    refine ⟨List.prefix_rfl, fun _ h => h, fun _ h => h, fun hs other hother => ?_⟩
    rcases hother with hother | hother
    · cases hother
      exact h.1
    · exact hs other (.inr hother)
  | _ => exact ⟨List.prefix_rfl, fun _ h => h, fun _ h => h, fun hs => hs⟩

def crlContract : Contract Call Call.Resp World Choice where
  act := act
  rely := Grows
  allowed _ _ _ := True
  good w e _ := WellMade w e
  refl := .refl
  trans _ _ _ h h' := ⟨h.revoked.trans h'.revoked, fun s hs => h'.issued s (h.issued s hs),
    fun c hc => h'.stored c (h.stored c hc), fun hs => h'.sound (h.sound hs)⟩
  keeps _ _ c _ := grows_act c

private theorem forCalls_crl : ForCalls crlContract where
  act := rfl
  good w e c he := by
    cases e with
    | putCrlState | cacheSet => exact nomatch he
    | _ => trivial

/-! ### What the programs return -/

section Programs

variable {known : List Nat}

def Known (known : List Nat) (w : World) : Prop := Sound w ∧ ∀ s ∈ known, s ∈ w.inv.revoked

def Listed (crl : Option SignedCrl) (w : World) : Prop := ∀ c, crl = some c → c.serials <+: w.inv.revoked

private theorem stable_sound : Stable crlContract Sound := fun _ _ h => h.sound

private theorem stable_revoked (serial : Nat) : Stable crlContract fun w => serial ∈ w.inv.revoked :=
  fun _ _ h hw => h.revoked.subset hw

private theorem stable_known (known : List Nat) : Stable crlContract (Known known) :=
  stable_sound.and (.forall stable_revoked known)

private theorem stable_start (list : List Nat) : Stable crlContract fun w => list <+: w.inv.revoked :=
  fun _ _ h hw => hw.trans h.revoked

private theorem stable_listed (crl : Option SignedCrl) : Stable crlContract (Listed crl) :=
  fun _ _ h hw c hc => (hw c hc).trans h.revoked

def Read (known list : List Nat) (w : World) : Prop := list <+: w.inv.revoked ∧ ∀ s ∈ known, s ∈ list

private theorem stable_read (known list : List Nat) : Stable crlContract (Read known list) :=
  (stable_start list).and fun _ _ _ hw => hw

private theorem tries_listRevoked (known : List Nat) :
    Tries crlContract (Known known) (attempt (call .listRevoked)) (Read known) := by
  refine forCalls_crl.look (e := .listRevoked) rfl (stable_known known) (Stable.ok (stable_read known))
    fun w c hw list hr => ?_
  rw [value_of_orError hr]
  exact ⟨List.prefix_rfl, hw.2⟩

private theorem tries_getCrlState : Tries crlContract Sound (attempt (call .getCrlState)) Listed := by
  refine forCalls_crl.look (e := .getCrlState) rfl stable_sound (Stable.ok stable_listed) fun w c hw crl hr a ha => ?_
  rw [value_of_orError hr] at ha
  exact hw a (.inr ha)

private theorem tries_cacheGet : Tries crlContract Sound (always (call .cacheGet)) Listed :=
  Tries.lift (forCalls_crl.look (e := .cacheGet) rfl stable_sound stable_listed fun _ _ hw c hc => hw c (.inl hc))
    stable_listed

private theorem tries_signAndStore (cfg : PkiConfig) (issuer : String) (list : List Nat) (current : Option SignedCrl) :
    Tries crlContract (fun w => list <+: w.inv.revoked) (signAndStore cfg issuer list current)
      fun r _ => ∃ crl, r = some crl ∧ crl.serials = list := by
  have hlist := stable_start list
  have hsign := forCalls_crl.plain (e := .sign) rfl hlist
  refine Tries.bind (Triple.conseq hsign (fun _ h => h) fun _ _ h _ _ => h) fun thisUpdate => ?_
  generalize hcrl : SignedCrl.mk ((current.map (·.crlNumber + 1)).getD 1) thisUpdate (thisUpdate + cfg.crlValidity) list
    issuer = crl
  have hserials : crl.serials = list := by rw [← hcrl]
  have hstored : Stable crlContract fun w => list <+: w.inv.revoked ∧ crl ∈ w.stored :=
    hlist.and fun _ _ h hc => h.stored crl hc
  have hput : Tries crlContract (fun w => list <+: w.inv.revoked) (attempt (call (.putCrlState current crl)))
      fun _ w => list <+: w.inv.revoked ∧ crl ∈ w.stored := by
    refine Triple.ask (e := Call.putCrlState current crl) hlist (Stable.ok fun _ => hstored) fun w c hw _ => ?_
    have hmade : WellMade w (.putCrlState current crl) := ⟨by rw [← hcrl], hserials ▸ hw⟩
    refine ⟨hmade, fun u hr => ⟨hlist w _ (grows_act c hmade) hw, ?_⟩⟩
    change crl ∈ (c.orKeep w { w with crlState := some crl, stored := w.stored ++ [crl] }).stored
    rw [Choice.orKeep, if_pos (fails_of_orError hr)]
    exact List.mem_append_right _ List.mem_cons_self
  refine hput.bind fun _ => ?_
  have hset : Triple crlContract (fun w => list <+: w.inv.revoked ∧ crl ∈ w.stored) (call (.cacheSet crl))
      fun _ _ => True := by
    refine Triple.ask hstored (fun _ _ _ _ _ => trivial) fun w c hw _ => ⟨?_, trivial⟩
    exact ⟨hserials ▸ hw.1, hw.2⟩
  exact (Tries.lift hset fun _ _ _ _ _ => trivial).bind fun _ => .ret (fun _ _ _ _ => trivial)
    fun _ _ => ⟨crl, rfl, hserials⟩

private theorem length_of_needsRegen {cfg : PkiConfig} {issuer : String} {force : Bool} {list : List Nat}
    {persisted current : Option SignedCrl} {now : Int} {crl : SignedCrl}
    (h : ¬ needsRegen cfg issuer force list persisted current now = true) (hcrl : current = some crl) :
    crl.serials.length = list.length := by
  subst hcrl
  by_contra hne
  exact h (by simp [needsRegen, hne])

/-- What `ensure_current` returns lists every serial that was known to be revoked. -/
private theorem tries_ensureCurrent (cfg : PkiConfig) (force : Bool) :
    Tries crlContract (Known known) (ensureCurrent cfg force)
    fun r _ => ∀ crl, r = some crl → ∀ s ∈ known, s ∈ crl.serials := by
  have hknown := stable_known known
  refine (Tries.lift (forCalls_crl.plain (e := .subCa) rfl hknown) fun _ => hknown).bind fun ca => ?_
  cases ca with
  | none => exact .ret hknown fun _ _ _ hc => nomatch hc
  | some issuer =>
    refine (((tries_listRevoked known).frame stable_sound).conseq (fun _ hw => ⟨hw, hw.1⟩) fun _ _ hw => hw).bind
      fun list => ?_
    have hread := (stable_read known list).and stable_sound
    refine ((tries_getCrlState.frame hread).conseq (fun _ hw => ⟨hw.2, hw⟩) fun _ _ hw => hw).bind fun persisted => ?_
    have hpersisted := (stable_listed persisted).and hread
    refine ((tries_cacheGet.frame hpersisted).conseq (fun _ hw => ⟨hw.2.2, hw⟩) fun _ _ hw => hw).bind fun cached => ?_
    have hcached := (stable_listed cached).and hpersisted
    refine (Tries.lift (forCalls_crl.plain (e := .now) rfl hcached) fun _ => hcached).bind fun now => ?_
    refine Tries.ite (fun _ => ?_) fun hkeep => .ret hcached fun w h crl hcrl s hs => ?_
    · have hall : Stable crlContract fun _ => ∀ s ∈ known, s ∈ list := fun _ _ _ hw => hw
      refine ((tries_signAndStore cfg issuer list _).frame hall).conseq (fun _ h => h.2.2.1) ?_
      rintro r w ⟨⟨crl, rfl, rfl⟩, hall⟩ c hc s hs
      cases hc
      exact hall s hs
    · -- two initial parts of one list that are equally long are equal
      obtain ⟨hc, hp, ⟨hlist, hall⟩, -⟩ := h
      have hcurrent : crl.serials <+: w.inv.revoked := by
        cases cached with
        | none => exact hp crl hcrl
        | some c => exact hc crl hcrl
      have hlength := length_of_needsRegen hkeep hcrl
      rw [(List.prefix_of_prefix_length_le hcurrent hlist hlength.le).eq_of_length hlength]
      exact hall s hs

private theorem revokes_database (known : List Nat) :
    Revokes crlContract (Known known) (fun s w => w.inv.rows.has s = true)
    (fun s w => s ∈ w.inv.revoked) fun s w => s ∈ w.inv.revoked where
  toForCalls := forCalls_crl
  base := stable_known known
  stable_issued s _ _ h := h.issued s
  stable_marked := stable_revoked
  stable_done := stable_revoked
  issued h := h
  mark h := by
    obtain ⟨row, hrow⟩ := Option.isSome_iff_exists.mp h
    exact Inventory.mem_revoked_markRevoked hrow
  insert h := h
  roll cfg := Triple.conseq (tries_ensureCurrent cfg true) (fun _ hw => hw) fun _ _ _ => trivial

/-- What a request has revoked is revoked, and the CRL that it returns has the serials that it was started with. -/
def Complete (known : List Nat) (r : Except String Outcome) (w : World) : Prop :=
  ∀ out, r = .ok out → (∀ s ∈ out.revoked, s ∈ w.inv.revoked) ∧ ∀ crl, out.crl = some crl → ∀ s ∈ known, s ∈ crl.serials

private theorem crl_triple_program (cfg : PkiConfig) (known : List Nat) (request : Request) :
    Triple crlContract (Known known) (request.program cfg) (Complete known) := by
  have hknown := stable_known known
  have hrevokes := revokes_database known
  have hcomplete : ∀ r w, (∀ out, r = .ok out → out.crl = none ∧ ∀ s ∈ out.revoked, s ∈ w.inv.revoked) →
      Complete known r w := by
    intro r w h out hr
    obtain ⟨hnone, hrevoked⟩ := h out hr
    exact ⟨hrevoked, fun crl hc => nomatch hnone.symm.trans hc⟩
  cases request with
  | revokeCertificate reason target => exact hrevokes.settled (hrevokes.certificate cfg reason target) hcomplete
  | revokeNodeCertificates nodeId => exact hrevokes.settled (hrevokes.nodeCertificates cfg nodeId) hcomplete
  | revokeSuperseded =>
    exact hrevokes.settled (.lift ((hrevokes.superseded cfg).conseq (fun _ _ => trivial) fun _ _ hw => hw)
      fun revoked => .forall stable_revoked revoked) hcomplete
  | refresh =>
    refine Tries.bind (Q := fun _ => Known known) ?_ fun _ => .ret hknown fun w _ => ⟨by simp, fun _ hc => nomatch hc⟩
    refine Tries.bind (Triple.conseq (forCalls_crl.plain (e := .revokedSerialSet) rfl hknown) (fun _ h => h)
      fun _ _ h _ _ => h) fun serials => ?_
    exact Tries.lift (forCalls_crl.plain (e := .storeSerials serials) rfl hknown) fun _ => hknown
  | ensureCurrent =>
    refine (tries_ensureCurrent cfg false).bind fun crl => .ret (fun _ _ _ hw => hw) fun w h => ?_
    exact ⟨by simp, h⟩

end Programs

/-! ### Runs -/

/-- The CRLs that were stored have increasing numbers and the row is the last of them; what is served was stored, and is
not followed by an older one. -/
structure Numbered (w : World) : Prop where
  stored : w.stored.Pairwise (·.crlNumber < ·.crlNumber)
  served : w.served.Pairwise (·.crlNumber ≤ ·.crlNumber)
  kept : ∀ crl ∈ w.served, crl ∈ w.stored
  last : w.stored.getLast? = w.crlState

private theorem Numbered.le_last (h : Numbered w) {crl last : SignedCrl} (hcrl : crl ∈ w.stored)
    (hlast : w.crlState = some last) : crl.crlNumber ≤ last.crlNumber := by
  obtain ⟨init, hinit⟩ := List.getLast?_eq_some_iff.mp (h.last.trans hlast)
  have hpairs := h.stored
  rw [hinit] at hcrl hpairs
  rcases List.mem_append.mp hcrl with hcrl | hcrl
  · exact ((List.pairwise_append.mp hpairs).2.2 crl hcrl last List.mem_cons_self).le
  · rw [List.mem_singleton.mp hcrl]

/-- A CRL that is stored was counted from the one that is stored then, and one that goes into the cache is still the one
that is stored. -/
def InTurnCall (w : World) : Call → Prop
  | .putCrlState base _ => base = w.crlState
  | .cacheSet crl => w.crlState = some crl
  | _ => True

instance (w : World) : (e : Call) → Decidable (InTurnCall w e)
  | .putCrlState base _ => inferInstanceAs (Decidable (base = w.crlState))
  | .cacheSet crl => inferInstanceAs (Decidable (w.crlState = some crl))
  | .storeSerials _ | .findRevocable _ _ | .getIssued _ | .markRevoked _ | .insertRevoked _ | .listSuperseded _ _
  | .revokedSerialSet | .takeSeen | .markSeen _ _ | .subCa | .now | .listRevoked | .getCrlState | .cacheGet | .sign =>
    inferInstanceAs (Decidable True)

private theorem numbered_act {e : Call} (c : Choice) (h : Numbered w) (hmade : WellMade w e) (hturn : InTurnCall w e) :
    Numbered (act e c w).2 := by
  cases e with
  | putCrlState base crl =>
    simp only [act, Choice.orKeep]
    split
    · have hnumber : ∀ other ∈ w.stored, other.crlNumber < crl.crlNumber := by
        intro other hother
        cases hlast : w.crlState with
        | none =>
          rw [List.getLast?_eq_none_iff.mp (h.last.trans hlast)] at hother
          exact absurd hother List.not_mem_nil
        | some last =>
          have hle := h.le_last hother hlast
          have hbase : base = some last := hturn.trans hlast
          have hsucc := hmade.1
          rw [hbase] at hsucc
          have : crl.crlNumber = last.crlNumber + 1 := hsucc
          omega
      refine ⟨?_, h.served, fun other ho => List.mem_append_left _ (h.kept other ho), List.getLast?_concat⟩
      exact List.pairwise_append.mpr ⟨h.stored, List.pairwise_singleton _ _, fun a ha b hb => by
        rw [List.mem_singleton.mp hb]
        exact hnumber a ha⟩
    · exact h
  | cacheSet crl =>
    refine ⟨h.stored, ?_, fun other ho => ?_, h.last⟩
    · refine List.pairwise_append.mpr ⟨h.served, List.pairwise_singleton _ _, fun a ha b hb => ?_⟩
      rw [List.mem_singleton.mp hb]
      exact h.le_last (h.kept a ha) hturn
    · rcases List.mem_append.mp ho with ho | ho
      · exact h.kept other ho
      · rw [List.mem_singleton.mp ho]
        exact hmade.2
  | markRevoked _ | markSeen _ _ =>
    simp only [act, Choice.orKeep]
    split <;> exact ⟨h.stored, h.served, h.kept, h.last⟩
  | _ => exact ⟨h.stored, h.served, h.kept, h.last⟩

/-- No other CRL is stored between the moment a call takes a CRL for the current one and the moment its own is in the
database and in the cache. -/
def InTurn (s : System) : Action → Prop
  | .call task _ => match Pool.next s task with
    | some e => InTurnCall s.state e
    | none => True
  | _ => True

private theorem inTurn_call {task : Nat} {c : Choice} :
    InTurn s (.call task c) ↔ ∀ e ∈ Pool.next s task, InTurnCall s.state e := by
  unfold InTurn
  cases hnext : Pool.next s task with
  | none => simp [hnext]
  | some e => simp [hnext]

instance (s : System) : (a : Action) → Decidable (InTurn s a)
  | .call task _ => decidable_of_iff (∀ e ∈ Pool.next s task, InTurnCall s.state e) inTurn_call.symm
  | .restart _ | .start _ | .recordSigned _ | .present _ | .rotateSubCa _ => inferInstanceAs (Decidable True)

private theorem grows_recordSigned (w : World) (row : CertRow) :
    Grows w { w with inv := w.inv.recordSignedChain row } := by
  refine ⟨by simp, fun serial hs => ?_, fun _ h => h, fun h => h.of_prefix rfl rfl (by simp)⟩
  have hput : ∀ r : CertRow, (w.inv.rows.put r).has serial = true := by
    intro r
    unfold Table.has at hs ⊢
    rw [Table.get_put]
    split
    · rfl
    · exact hs
  simp only [Inventory.recordSignedChain, Inventory.markSuperseded, has_update]
  unfold Inventory.recordIssued
  split <;> exact hput _

structure CrlRun (s : System) : Prop where
  fine : s.Fine crlContract Complete
  sound : Sound s.state
  numbered : Numbered s.state

private theorem CrlRun.confirmed (h : CrlRun s) : ∀ serial ∈ s.confirmed, serial ∈ s.state.inv.revoked := by
  intro serial hserial
  obtain ⟨t, out, ht, hs⟩ := mem_confirmed.mp hserial
  exact (h.fine.result ht out rfl).1 serial hs

private theorem CrlRun.change (h : CrlRun s) (hgrows : Grows s.state w) (hn : Numbered w) :
    CrlRun { s with state := w } := ⟨h.fine.change hgrows, hgrows.sound h.sound, hn⟩

private theorem crlRun_step (cfg : PkiConfig) {a : Action} (h : CrlRun s) (ha : InTurn s a) :
    CrlRun (s.step cfg a) := by
  have hn := h.numbered
  cases a with
  | start request =>
    exact ⟨h.fine.start (crl_triple_program cfg _ request s.state ⟨h.sound, h.confirmed⟩), h.sound, hn⟩
  | call task c =>
    have hmade : ∀ e, Pool.next s task = some e → WellMade s.state e := fun e he => h.fine.good (c := c) he trivial
    have hturn : ∀ e, Pool.next s task = some e → InTurnCall s.state e := inTurn_call.mp ha
    have hkeep : Sound (Pool.advance act s task c).state ∧ Numbered (Pool.advance act s task c).state := by
      rw [Pool.advance_state]
      cases hnext : Pool.next s task with
      | none => exact ⟨h.sound, hn⟩
      | some e =>
        exact ⟨(grows_act c (hmade e hnext)).sound h.sound, numbered_act c hn (hmade e hnext) (hturn e hnext)⟩
    exact ⟨Pool.Fine.advance (C := crlContract) h.fine fun _ _ => trivial, hkeep.1, hkeep.2⟩
  | recordSigned row =>
    exact h.change (grows_recordSigned s.state row) ⟨hn.stored, hn.served, hn.kept, hn.last⟩
  | present | rotateSubCa =>
    exact h.change ⟨List.prefix_rfl, fun _ h => h, fun _ h => h, fun h => h⟩ ⟨hn.stored, hn.served, hn.kept, hn.last⟩
  | restart c =>
    have hgrows : Grows s.state (s.step cfg (.restart c)).state :=
      ⟨List.prefix_rfl, fun _ h => h, fun _ h => h, fun h crl hcrl => h crl (.inr (hcrl.elim id id))⟩
    refine ⟨fun t ht => ?_, hgrows.sound h.sound, ⟨hn.stored, hn.served, hn.kept, hn.last⟩⟩
    exact (h.fine t (List.mem_filter.mp ht).1).interfere hgrows

/-- From a controller that has no CRL yet: no number is given twice, no older CRL replaces a newer one, and a CRL that
is returned lists every serial whose revocation had returned when the call started. -/
theorem crls_numbered_and_complete (cfg : PkiConfig) (w : World) (hstate : w.crlState = none) (hcache : w.cache = none)
    (hstored : w.stored = []) (hserved : w.served = []) (acts : List Action)
    (h : Each (System.step cfg) InTurn ⟨w, []⟩ acts) :
    Along (System.step cfg) (fun s => s.state.stored.Pairwise (·.crlNumber < ·.crlNumber) ∧
      s.state.served.Pairwise (·.crlNumber ≤ ·.crlNumber) ∧ (∀ crl ∈ s.state.served, crl ∈ s.state.stored) ∧
      ∀ known out crl, (known, .ret (.ok out)) ∈ s.tasks → out.crl = some crl → ∀ serial ∈ known, serial ∈ crl.serials)
      ⟨w, []⟩ acts := by
  have hnumbered : Numbered w := by
    refine ⟨by simp [hstored], by simp [hserved], by simp [hserved], by simp [hstored, hstate]⟩
  have hsound : Sound w := by
    intro crl hcrl
    simp [hstate, hcache] at hcrl
  have hrun : Along (System.step cfg) CrlRun ⟨w, []⟩ acts :=
    along_of_each ⟨fun t ht => absurd ht List.not_mem_nil, hsound, hnumbered⟩ (fun s a => crlRun_step cfg) h
  refine hrun.mono fun s hs => ⟨hs.numbered.stored, hs.numbered.served, hs.numbered.kept, ?_⟩
  intro known out crl ht hcrl serial hserial
  exact (hs.fine.result ht out rfl).2 crl hcrl serial hserial

def twoCertificates : World :=
  ⟨⟨(Table.empty.put nodeRow).put { nodeRow with serial := 8 }, []⟩, ⟨[], some 0⟩, none, none, some "sub-ca", [], [], []⟩

theorem two_crls_in_turn :
    (run (System.step dailyPki) ⟨twoCertificates, []⟩ (.start (.revokeCertificate 1 (.serial 7)) :: calls 0 12 ++
      .start (.revokeCertificate 1 (.serial 8)) :: calls 1 12)).state.stored.length = 2 ∧
    (run (System.step dailyPki) ⟨twoCertificates, []⟩ (.start (.revokeCertificate 1 (.serial 7)) :: calls 0 12 ++
      .start (.revokeCertificate 1 (.serial 8)) :: calls 1 12)).state.stored.Pairwise (·.crlNumber < ·.crlNumber) :=
  ⟨by decide, (crls_numbered_and_complete dailyPki twoCertificates rfl rfl rfl rfl _ (by decide)).last.1⟩

/-- The second revocation runs while the first one is signing: the number 1 is on two lists, and the shorter one,
without the serial 8, is in force. -/
theorem overlapping_revocations_share_number :
    ((run (System.step dailyPki) ⟨twoCertificates, []⟩ (.start (.revokeCertificate 1 (.serial 7)) :: calls 0 9 ++
      .start (.revokeCertificate 1 (.serial 8)) :: calls 1 12 ++ calls 0 3)).state.stored.map
        fun crl => (crl.crlNumber, crl.serials)) = [(1, [7, 8]), (1, [7])] := by
  decide

end Kcore.Pki
