import Kcore.Lib.Run
import Kcore.Pki.Inventory

/-!
# Certificates that rotation has replaced

When the controller signs a certificate, the older ones of the same subject become `rotated`. They are revoked some
hours after the new one was first presented, because the node is then taken to use it. The nodes install the new
certificate some time after it was signed, may go back to an old one, and an operator may have a certificate issued for
a node that has one.
-/

namespace Kcore.Pki

open Keyed Machine

structure Pass where
  now : Int
  seenFails : Bool
  listFails : Bool
  revokeFails : List Nat

namespace Inventory

def revokeSuperseded (inv : Inventory) (afterHours : Int) (p : Pass) : Inventory × List Nat :=
  if afterHours ≤ 0 ∨ p.listFails then (inv, [])
  else
    let serials := ((inv.listSuperseded .node (p.now - 3600 * afterHours) p.now).map CertRow.serial).filter
      (· ∉ p.revokeFails)
    (serials.foldl markRevoked inv, serials)

end Inventory

/-- The inventory and the serials presented since the last pass, and the certificate that each node has on disk. -/
structure Fleet where
  inv : Inventory
  seen : List Nat
  installed : List (String × Nat)

inductive FleetEvent where
  | sign (row : CertRow)
  | install (node : String) (serial : Nat)
  | present (serial : Nat)
  | pass (p : Pass)

namespace Fleet

/-- `record_seen_certificates`. What cannot be written is forgotten. -/
def recordSeen (f : Fleet) (p : Pass) : Fleet :=
  { f with inv := if p.seenFails then f.inv else f.inv.markSeen f.seen p.now, seen := [] }

def passRevokes (afterHours : Int) (f : Fleet) (p : Pass) : List Nat :=
  ((f.recordSeen p).inv.revokeSuperseded afterHours p).2

def step (afterHours : Int) (f : Fleet) : FleetEvent → Fleet
  | .sign row => { f with inv := f.inv.recordSignedChain row }
  | .install node serial => { f with installed := (node, serial) :: f.installed.filter (·.1 ≠ node) }
  | .present serial => { f with seen := f.seen.insert serial }
  | .pass p =>
    let f' := f.recordSeen p
    { f' with inv := (f'.inv.revokeSuperseded afterHours p).1 }

def Presented (f : Fleet) (r : CertRow) : Prop := r.firstSeenAt ≠ none ∨ r.serial ∈ f.seen

def NoneNewer (f : Fleet) (serial : Nat) : Prop :=
  ∀ r ∈ f.inv.rows.get serial, ∀ new ∈ f.inv.rows.rows, new.subjectCn = r.subjectCn → f.inv.status new = .active →
    f.Presented new → new.serial = serial

/-- The surroundings as the reconciler takes them to be. A serial is not used twice; a node does not install a
certificate when a newer one of its subject was presented; and when the active certificate of a subject is presented,
the nodes of that subject have it installed. -/
def AsAssumed (f : Fleet) : FleetEvent → Prop
  | .sign row => f.inv.rows.get row.serial = none ∧ row.serial ∉ f.seen ∧ ∀ i ∈ f.installed, i.2 ≠ row.serial
  | .install _ serial => f.NoneNewer serial
  | .present serial => ∀ new ∈ f.inv.rows.get serial, f.inv.status new = .active →
      ∀ i ∈ f.installed, ∀ r ∈ f.inv.rows.get i.2, new.subjectCn = r.subjectCn → serial = i.2
  | .pass _ => True

def SparesInstalled (afterHours : Int) (f : Fleet) : FleetEvent → Prop
  | .pass p => ∀ serial ∈ f.passRevokes afterHours p, ∀ i ∈ f.installed, i.2 ≠ serial
  | _ => True

/-- No node has a certificate that a newer one was presented for. -/
def Current (f : Fleet) : Prop := ∀ i ∈ f.installed, f.NoneNewer i.2

theorem NoneNewer.mono {f f' : Fleet} {serial : Nat} (h : f.NoneNewer serial)
    (hget : ∀ r ∈ f'.inv.rows.get serial, ∃ old ∈ f.inv.rows.get serial, old.subjectCn = r.subjectCn)
    (hnew : ∀ k, ∀ new ∈ f'.inv.rows.get k, f'.inv.status new = .active → f'.Presented new →
      ∃ old ∈ f.inv.rows.get k, old.subjectCn = new.subjectCn ∧ f.inv.status old = .active ∧ f.Presented old) :
    f'.NoneNewer serial := by
  intro r hr new hmem hcn hactive hpresented
  obtain ⟨old, hold, hcn'⟩ := hget r hr
  obtain ⟨o, ho, hocn, hoactive, hopresented⟩ := hnew _ new (Table.get_of_mem hmem) hactive hpresented
  rw [← Table.key_of_get ho]
  exact h old hold o (Table.mem_of_get ho) (hocn.trans (hcn.trans hcn'.symm)) hoactive hopresented

end Fleet

/-! ### Operations on the inventory -/

namespace Inventory

variable {inv : Inventory} {row r : CertRow} {k : Nat}

theorem not_rotated_of_active (h : inv.status r = .active) : r.serial ∉ inv.revoked ∧ r.rotated = false := by
  unfold status at h
  split_ifs at h with hrevoked hrotated
  exact ⟨hrevoked, by simpa using hrotated⟩

theorem active_of_not_rotated (hrevoked : r.serial ∉ inv.revoked) (hrotated : r.rotated = false) :
    inv.status r = .active := by
  rw [status, if_neg hrevoked, if_neg (by simp [hrotated])]

theorem get_recordSignedChain_of_ne (hk : row.serial ≠ k) (h : r ∈ (inv.recordSignedChain row).rows.get k) :
    ∃ old ∈ inv.rows.get k, r = old ∨ r = { old with rotated := true } := by
  have hput : (inv.recordIssued { row with rotated := false, firstSeenAt := none }).rows.get k = inv.rows.get k := by
    unfold recordIssued
    split <;> exact Table.get_put_of_ne hk
  simp only [recordSignedChain, markSuperseded, Table.get_update, hput, Option.mem_def, Option.map_eq_some_iff] at h
  obtain ⟨old, hold, rfl⟩ := h
  refine ⟨old, hold, ?_⟩
  split
  · exact .inr rfl
  · exact .inl rfl

theorem get_recordSignedChain_self (hfresh : inv.rows.get row.serial = none)
    (h : r ∈ (inv.recordSignedChain row).rows.get row.serial) : r.serial = row.serial ∧ r.firstSeenAt = none := by
  have hput : (inv.recordIssued { row with rotated := false, firstSeenAt := none }).rows.get row.serial =
      some { row with rotated := false, firstSeenAt := none } := by
    simp only [recordIssued, hfresh]
    exact Table.get_put_self _ _
  simp only [recordSignedChain, markSuperseded, Table.get_update, hput, Option.map_some, Option.mem_some_iff] at h
  subst h
  split <;> exact ⟨rfl, rfl⟩

theorem rows_foldl_markRevoked (serials : List Nat) (inv : Inventory) :
    (serials.foldl markRevoked inv).rows = inv.rows := by
  induction serials generalizing inv with
  | nil => rfl
  | cons serial serials ih => rw [List.foldl_cons, ih, rows_markRevoked]

theorem revoked_foldl_markRevoked (serials : List Nat) (inv : Inventory) :
    inv.revoked ⊆ (serials.foldl markRevoked inv).revoked := by
  induction serials generalizing inv with
  | nil => exact fun _ h => h
  | cons serial serials ih => exact fun s hs => ih _ ((inv.revoked_markRevoked serial).subset hs)

end Inventory

/-! ### Steps -/

namespace Fleet

variable {f : Fleet} {serial : Nat}

theorem NoneNewer.sign {row : CertRow} (h : f.NoneNewer serial) (hfresh : f.inv.rows.get row.serial = none)
    (hseen : row.serial ∉ f.seen) (hne : row.serial ≠ serial) :
    NoneNewer { f with inv := f.inv.recordSignedChain row } serial := by
  refine h.mono (fun r hr => ?_) fun k new hnew hactive hpresented => ?_
  · obtain ⟨old, hold, hr⟩ := Inventory.get_recordSignedChain_of_ne hne hr
    refine ⟨old, hold, ?_⟩
    rcases hr with rfl | rfl <;> rfl
  · by_cases hk : row.serial = k
    · subst hk
      obtain ⟨hserial, hunseen⟩ := Inventory.get_recordSignedChain_self hfresh hnew
      rcases hpresented with hpresented | hpresented
      · exact absurd hunseen hpresented
      · exact absurd (hserial ▸ hpresented) hseen
    · obtain ⟨hrevoked, hrotated⟩ := Inventory.not_rotated_of_active hactive
      rw [Inventory.revoked_recordSignedChain] at hrevoked
      obtain ⟨old, hold, hr⟩ := Inventory.get_recordSignedChain_of_ne hk hnew
      rcases hr with rfl | rfl
      · exact ⟨new, hold, rfl, Inventory.active_of_not_rotated hrevoked hrotated, hpresented⟩
      · exact nomatch hrotated

theorem NoneNewer.recordSeen {p : Pass} (h : f.NoneNewer serial) : (f.recordSeen p).NoneNewer serial := by
  unfold Fleet.recordSeen
  cases p.seenFails with
  | true =>
    refine h.mono (fun r hr => ⟨r, hr, rfl⟩) fun k new hnew hactive hpresented => ?_
    exact ⟨new, hnew, rfl, hactive, hpresented.imp_right fun hseen => absurd hseen List.not_mem_nil⟩
  | false =>
    have hget : ∀ k, ∀ r ∈ (f.inv.markSeen f.seen p.now).rows.get k, ∃ old ∈ f.inv.rows.get k,
        r = old ∨ (old.serial ∈ f.seen ∧ r = { old with firstSeenAt := some p.now }) := by
      intro k r hr
      simp only [Inventory.markSeen, Table.get_update, Option.mem_def, Option.map_eq_some_iff] at hr
      obtain ⟨old, hold, rfl⟩ := hr
      refine ⟨old, hold, ?_⟩
      split
      · next hunseen => exact .inr ⟨(of_decide_eq_true hunseen).1, rfl⟩
      · exact .inl rfl
    refine h.mono (fun r hr => ?_) fun k new hnew hactive hpresented => ?_
    · obtain ⟨old, hold, hr⟩ := hget serial r hr
      refine ⟨old, hold, ?_⟩
      rcases hr with rfl | ⟨-, rfl⟩ <;> rfl
    · obtain ⟨old, hold, hr⟩ := hget k new hnew
      rcases hr with rfl | ⟨hseen, rfl⟩
      · exact ⟨new, hold, rfl, hactive, hpresented.imp_right fun hseen => absurd hseen List.not_mem_nil⟩
      · exact ⟨old, hold, rfl, hactive, .inr hseen⟩

theorem NoneNewer.revokeSuperseded {afterHours : Int} {p : Pass} (h : f.NoneNewer serial) :
    NoneNewer { f with inv := (f.inv.revokeSuperseded afterHours p).1 } serial := by
  unfold Inventory.revokeSuperseded
  split
  · exact h
  · refine h.mono (fun r hr => ⟨r, ?_, rfl⟩) fun k new hnew hactive hpresented => ?_
    · simpa only [Inventory.rows_foldl_markRevoked] using hr
    · obtain ⟨hrevoked, hrotated⟩ := Inventory.not_rotated_of_active hactive
      have hrevoked' := fun hmem => hrevoked (Inventory.revoked_foldl_markRevoked _ f.inv hmem)
      refine ⟨new, ?_, rfl, Inventory.active_of_not_rotated hrevoked' hrotated, hpresented⟩
      simpa only [Inventory.rows_foldl_markRevoked] using hnew

theorem NoneNewer.present {serial' : Nat} (h : f.NoneNewer serial)
    (hpresent : ∀ new ∈ f.inv.rows.get serial', f.inv.status new = .active →
      ∀ r ∈ f.inv.rows.get serial, new.subjectCn = r.subjectCn → serial' = serial) :
    NoneNewer { f with seen := f.seen.insert serial' } serial := by
  intro r hr new hmem hcn hactive hpresented
  by_cases hself : new.serial = serial'
  · rw [hself]
    exact hpresent new (hself ▸ Table.get_of_mem hmem) hactive r hr hcn
  · refine h r hr new hmem hcn hactive (hpresented.imp_right fun hseen => ?_)
    rcases List.mem_insert_iff.mp hseen with hseen | hseen
    · exact absurd hseen hself
    · exact hseen

theorem current_step (afterHours : Int) {e : FleetEvent} (h : f.Current) (he : f.AsAssumed e) :
    (f.step afterHours e).Current := by
  cases e with
  | sign row => exact fun i hi => (h i hi).sign he.1 he.2.1 fun hne => he.2.2 i hi hne.symm
  | install node serial =>
    intro i hi
    rcases List.mem_cons.mp hi with rfl | hi
    · exact he
    · exact h i (List.mem_filter.mp hi).1
  | present serial => exact fun i hi => (h i hi).present fun new hnew hactive => he new hnew hactive i hi
  | pass p => exact fun i hi => ((h i hi).recordSeen (p := p)).revokeSuperseded

theorem not_revoked_of_noneNewer {afterHours : Int} {p : Pass} (h : f.NoneNewer serial) :
    serial ∉ (f.inv.revokeSuperseded afterHours p).2 := by
  intro hmem
  unfold Inventory.revokeSuperseded at hmem
  split at hmem
  · exact absurd hmem List.not_mem_nil
  · obtain ⟨old, hold, rfl⟩ := List.mem_map.mp (List.mem_filter.mp hmem).1
    obtain ⟨hmem, hold⟩ := List.mem_filter.mp hold
    obtain ⟨-, -, -, hreplaced⟩ := of_decide_eq_true hold
    obtain ⟨new, hnew, hwhy⟩ := List.any_eq_true.mp hreplaced
    obtain ⟨hcn, hactive, hne, hseen⟩ := of_decide_eq_true hwhy
    refine hne (h old (Table.get_of_mem hmem) new hnew hcn hactive (.inl fun hnone => ?_))
    rw [hnone] at hseen
    exact nomatch hseen

/-- As long as the surroundings are as assumed, no pass revokes a certificate that is installed. -/
theorem superseded_not_installed (afterHours : Int) (inv : Inventory) (seen : List Nat) (events : List FleetEvent)
    (h : Each (step afterHours) AsAssumed ⟨inv, seen, []⟩ events) :
    Each (step afterHours) (SparesInstalled afterHours) ⟨inv, seen, []⟩ events := by
  have hcurrent : Current ⟨inv, seen, []⟩ := fun i hi => absurd hi List.not_mem_nil
  have hrun := along_of_each hcurrent (fun _ _ => current_step afterHours) h
  refine hrun.each.mono fun f e hf => ?_
  cases e with
  | pass p =>
    rintro serial hserial i hi rfl
    exact not_revoked_of_noneNewer (hf i hi).recordSeen hserial
  | _ => trivial

instance (f : Fleet) (r : CertRow) : Decidable (f.Presented r) :=
  inferInstanceAs (Decidable (r.firstSeenAt ≠ none ∨ r.serial ∈ f.seen))

instance (f : Fleet) (serial : Nat) : Decidable (f.NoneNewer serial) :=
  inferInstanceAs (Decidable (∀ r ∈ f.inv.rows.get serial, ∀ new ∈ f.inv.rows.rows, new.subjectCn = r.subjectCn →
    f.inv.status new = .active → f.Presented new → new.serial = serial))

instance (f : Fleet) : (e : FleetEvent) → Decidable (f.AsAssumed e)
  | .sign row => inferInstanceAs (Decidable (f.inv.rows.get row.serial = none ∧ row.serial ∉ f.seen ∧
      ∀ i ∈ f.installed, i.2 ≠ row.serial))
  | .install _ serial => inferInstanceAs (Decidable (f.NoneNewer serial))
  | .present serial => inferInstanceAs (Decidable (∀ new ∈ f.inv.rows.get serial, f.inv.status new = .active →
      ∀ i ∈ f.installed, ∀ r ∈ f.inv.rows.get i.2, new.subjectCn = r.subjectCn → serial = i.2))
  | .pass _ => inferInstanceAs (Decidable True)

instance (afterHours : Int) (f : Fleet) : (e : FleetEvent) → Decidable (f.SparesInstalled afterHours e)
  | .pass p => inferInstanceAs (Decidable (∀ serial ∈ f.passRevokes afterHours p, ∀ i ∈ f.installed, i.2 ≠ serial))
  | .sign _ | .install _ _ | .present _ => inferInstanceAs (Decidable True)

def rotationRow (serial : Nat) : CertRow := ⟨serial, "kcore-node-10.0.0.1", .node, "node-a", 900000, false, none⟩

def rotation : List FleetEvent :=
  [.sign (rotationRow 1), .install "node-a" 1, .present 1, .sign (rotationRow 2), .install "node-a" 2, .present 2]

def twoPasses : List FleetEvent := [.pass ⟨1000, false, false, []⟩, .pass ⟨87400, false, false, []⟩]

theorem rotation_revokes_old :
    (run (step 24) ⟨⟨Table.empty, []⟩, [], []⟩ (rotation ++ twoPasses)).inv.revoked = [1] ∧
    Each (step 24) (SparesInstalled 24) ⟨⟨Table.empty, []⟩, [], []⟩ (rotation ++ twoPasses) :=
  ⟨by decide, superseded_not_installed 24 ⟨Table.empty, []⟩ [] _ (by decide)⟩

/-- The node goes back to the certificate 1 after a connection has presented 2: a day later 1 is revoked. -/
theorem rolled_back_certificate_revoked :
    ¬ Each (step 24) (SparesInstalled 24) ⟨⟨Table.empty, []⟩, [], []⟩
      (rotation ++ .install "node-a" 1 :: twoPasses) := by
  decide

end Fleet

end Kcore.Pki
