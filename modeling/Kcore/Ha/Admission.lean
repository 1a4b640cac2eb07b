import Mathlib.Algebra.Order.Group.Int
import Kcore.Text
import Kcore.Lib.Classes
import Kcore.Lib.TopSum

/-!
# Admission control

`admission` says whether the protected guests of any `tolerate` failure groups fit on the hosts that are left. It looks
at one choice of groups only, those with the most reserved memory, and counts neither another choice that weighs more
on the processors nor the room that is lost with a group. `sound_of_ordered` gives hosts and guests for which its answer
is right for every choice.
-/

namespace Kcore.Ha

/-! ### The report -/

structure AdmissionHost where
  cpu : Int
  memory : Int
  survivor : Bool
  canFail : Bool
  domain : String

structure AdmissionVm where
  hostIndex : Nat
  cpu : Int
  memory : Int
  isProtected : Bool

inductive Capacity where
  | sufficient
  | insufficient
  | disabled
  | notApplicable
  deriving DecidableEq

structure AdmissionReport where
  capacity : Capacity
  hostFailuresTolerated : Int
  memoryHeadroomBytes : Int
  cpuHeadroom : Int
  message : String

/-- A sum or difference of 64-bit values, as it is computed without overflow checks. -/
def asI64 (v : Int) : Int := Int.bmod v (2 ^ 64)

def sumI64 (l : List Int) : Int := l.foldl (fun acc v => asI64 (acc + v)) 0

def reserved (hosts : List AdmissionHost) (vms : List AdmissionVm) : List (Int × Int) :=
  (vms.filter (·.isProtected)).foldl
    (fun slots vm => slots.modify vm.hostIndex fun slot => (asI64 (slot.1 + vm.cpu), asI64 (slot.2 + vm.memory)))
    (hosts.map fun _ => (0, 0))

def mayFail (hosts : List AdmissionHost) (index : Nat) : Bool :=
  match hosts[index]? with
  | some host => host.canFail || host.survivor
  | none => false

def survives (hosts : List AdmissionHost) (index : Nat) : Bool :=
  match hosts[index]? with
  | some host => host.survivor
  | none => false

def domainOf (hosts : List AdmissionHost) (index : Nat) : String :=
  match hosts[index]? with
  | some host => trim host.domain
  | none => ""

def pushHost (hosts : List AdmissionHost) (index : Nat) : List (List Nat) → List (List Nat)
  | [] => [[index]]
  | group :: groups =>
    if domainOf hosts (group.headD 0) = domainOf hosts index then (group ++ [index]) :: groups
    else group :: pushHost hosts index groups

def placeHost (hosts : List AdmissionHost) (groups : List (List Nat)) (index : Nat) : List (List Nat) :=
  if !mayFail hosts index then groups
  else if domainOf hosts index = "" then groups ++ [[index]]
  else pushHost hosts index groups

def failureGroups (hosts : List AdmissionHost) : List (List Nat) :=
  (List.range hosts.length).foldl (placeHost hosts) []

def groupLe (slots : List (Int × Int)) (a b : List Nat) : Bool :=
  let mem := fun group : List Nat => sumI64 (group.map fun i => (slots.getD i (0, 0)).2)
  let cpu := fun group : List Nat => sumI64 (group.map fun i => (slots.getD i (0, 0)).1)
  if mem a ≠ mem b then decide (mem b < mem a)
  else if cpu a ≠ cpu b then decide (cpu b < cpu a)
  else decide (a.headD 0 ≤ b.headD 0)

def admission (hosts : List AdmissionHost) (vms : List AdmissionVm) (tolerate : Int) : AdmissionReport :=
  if tolerate ≤ 0 then ⟨.disabled, 0, 0, 0, "admission control is off"⟩
  else if (hosts.filter (·.survivor)).length ≤ tolerate.toNat then
    ⟨.notApplicable, 0, 0, 0, "admission control needs at least " ++ toString (asI32 (tolerate + 1)) ++
      " schedulable hosts to tolerate " ++ toString tolerate⟩
  else
    let slots := reserved hosts vms
    let lost := (((failureGroups hosts).insertionSort (groupLe slots · ·)).take tolerate.toNat).flatten
    let lostCpu := sumI64 (lost.map fun i => (slots.getD i (0, 0)).1)
    let lostMem := sumI64 (lost.map fun i => (slots.getD i (0, 0)).2)
    let left := ((hosts.zip slots).zipIdx.filter fun e => e.1.1.survivor && !lost.contains e.2).map (·.1)
    let freeCpu := sumI64 (left.map fun e => max (asI64 (e.1.cpu - e.2.1)) 0)
    let freeMem := sumI64 (left.map fun e => max (asI64 (e.1.memory - e.2.2)) 0)
    let memHeadroom := asI64 (freeMem - lostMem)
    let cpuHeadroom := asI64 (freeCpu - lostCpu)
    if 0 ≤ memHeadroom ∧ 0 ≤ cpuHeadroom then
      ⟨.sufficient, tolerate, memHeadroom, cpuHeadroom, "can tolerate " ++ toString tolerate ++ " host failure(s)"⟩
    else
      ⟨.insufficient, 0, memHeadroom, cpuHeadroom, "losing " ++ toString tolerate ++
        " host(s) leaves a shortfall of " ++ toString (asI64 (-min memHeadroom 0)) ++ " bytes and " ++
        toString cpuHeadroom ++ " cores"⟩

/-! ### What the report promises -/

inductive Resource where
  | cpu
  | memory

instance {p : Resource → Prop} [DecidablePred p] : Decidable (∀ r, p r) :=
  decidable_of_iff (p .cpu ∧ p .memory)
    ⟨fun h r => match r with
      | .cpu => h.1
      | .memory => h.2, fun h => ⟨h .cpu, h .memory⟩⟩

def AdmissionHost.amount (host : AdmissionHost) : Resource → Int
  | .cpu => host.cpu
  | .memory => host.memory

def AdmissionVm.amount (vm : AdmissionVm) : Resource → Int
  | .cpu => vm.cpu
  | .memory => vm.memory

def reservedOn (vms : List AdmissionVm) (r : Resource) (index : Nat) : Int :=
  ((vms.filter fun vm => vm.isProtected && vm.hostIndex == index).map (·.amount r)).sum

def freeOn (hosts : List AdmissionHost) (vms : List AdmissionVm) (r : Resource) (index : Nat) : Int :=
  match hosts[index]? with
  | some host => max (host.amount r - reservedOn vms r index) 0
  | none => 0

/-- Hosts that share a non-empty domain fail together, others alone. -/
def FailTogether (hosts : List AdmissionHost) (p i : Nat) : Prop :=
  p = i ∨ domainOf hosts p ≠ "" ∧ domainOf hosts p = domainOf hosts i

instance (hosts : List AdmissionHost) (p i : Nat) : Decidable (FailTogether hosts p i) :=
  inferInstanceAs (Decidable (_ ∨ _ ∧ _))

/-- The hosts that are lost when the groups of the hosts `picks` fail. -/
def lostWith (hosts : List AdmissionHost) (picks : List Nat) (i : Nat) : Bool :=
  mayFail hosts i && picks.any fun p => decide (FailTogether hosts p i)

/-- Whatever groups fail, at most `tolerate` of them, what was reserved on their hosts is free on the others. -/
def Sound (hosts : List AdmissionHost) (vms : List AdmissionVm) (tolerate : Nat) : Prop :=
  ∀ picks : List Nat, (∀ p ∈ picks, mayFail hosts p) → picks.length ≤ tolerate → ∀ r,
    (((List.range hosts.length).filter (lostWith hosts picks)).map (reservedOn vms r)).sum ≤
      (((List.range hosts.length).filter fun i => survives hosts i && !lostWith hosts picks i).map
        (freeOn hosts vms r)).sum

def cost (hosts : List AdmissionHost) (vms : List AdmissionVm) (r : Resource) (i : Nat) : Int :=
  reservedOn vms r i + if survives hosts i then freeOn hosts vms r i else 0

def groupCost (hosts : List AdmissionHost) (vms : List AdmissionVm) (r : Resource) (group : List Nat) : Int :=
  (group.map (cost hosts vms r)).sum

def groupReserved (vms : List AdmissionVm) (r : Resource) (group : List Nat) : Int :=
  (group.map (reservedOn vms r)).sum

/-- The order in which the groups are considered is also the order of what their loss costs, in memory and in
processors. -/
def Ordered (hosts : List AdmissionHost) (vms : List AdmissionVm) : Prop :=
  ∀ g ∈ failureGroups hosts, ∀ g' ∈ failureGroups hosts,
    (groupReserved vms .memory g' < groupReserved vms .memory g ∨
      groupReserved vms .memory g' = groupReserved vms .memory g ∧
        groupReserved vms .cpu g' ≤ groupReserved vms .cpu g) →
    ∀ r, groupCost hosts vms r g' ≤ groupCost hosts vms r g

def i64Bound : Int := 9223372036854775808

/-- No amount is negative, and neither what is reserved nor what is free exceeds 64 bits in total. -/
structure InRange (hosts : List AdmissionHost) (vms : List AdmissionVm) : Prop where
  host : ∀ r, ∀ host ∈ hosts, 0 ≤ host.amount r ∧ host.amount r < i64Bound
  vm : ∀ r, ∀ vm ∈ vms, 0 ≤ vm.amount r
  reserved : ∀ r, ((List.range hosts.length).map (reservedOn vms r)).sum < i64Bound
  free : ∀ r, ((List.range hosts.length).map (freeOn hosts vms r)).sum < i64Bound

/-! ### The groups -/

section Groups

variable {hosts : List AdmissionHost} {seen : List Nat} {groups : List (List Nat)} {i : Nat}

def failsBy (hosts : List AdmissionHost) (i : Nat) : String ⊕ Nat :=
  if domainOf hosts i = "" then .inr i else .inl (domainOf hosts i)

private theorem failTogether_iff {p : Nat} : FailTogether hosts p i ↔ failsBy hosts p = failsBy hosts i := by
  unfold FailTogether failsBy
  by_cases hp : domainOf hosts p = "" <;> by_cases hi : domainOf hosts i = "" <;> simp [hp, hi]
  · rintro rfl
    exact hi hp
  · rintro rfl
    exact hp hi
  · rintro rfl
    rfl

private theorem pushHost_eq_insert (hne : domainOf hosts i ≠ "") (hg : ∀ g ∈ groups, g ≠ []) :
    pushHost hosts i groups = Classes.insert (failsBy hosts) i groups := by
  induction groups with
  | nil => rfl
  | cons g groups ih =>
    obtain ⟨p, rest, rfl⟩ := List.exists_cons_of_ne_nil (hg g List.mem_cons_self)
    have hcond : domainOf hosts p = domainOf hosts i ↔ some (failsBy hosts p) = some (failsBy hosts i) := by
      rw [Option.some.injEq, ← failTogether_iff, FailTogether]
      exact ⟨fun h => .inr ⟨h ▸ hne, h⟩, fun h => h.elim (congrArg _) And.right⟩
    rw [pushHost, Classes.insert, ih fun g h => hg g (List.mem_cons_of_mem _ h)]
    exact if_congr hcond rfl rfl

private theorem placeHost_eq_insert {l : List Nat} {keys : List (String ⊕ Nat)}
    (h : Classes.Grouped (failsBy hosts) l keys groups) (hi : i ∉ l) (hf : mayFail hosts i = true) :
    placeHost hosts groups i = Classes.insert (failsBy hosts) i groups := by
  unfold placeHost
  rw [if_neg (by simp [hf])]
  split
  · rename_i hd
    rw [h.insert_eq_append]
    intro hmem
    obtain ⟨p, hp, heq⟩ := List.mem_map.mp hmem
    rcases failTogether_iff.mpr heq.symm with rfl | ⟨hne, -⟩
    · exact hi hp
    · exact hne hd
  · rename_i hd
    exact pushHost_eq_insert hd fun g hg => h.ne_nil hg

private theorem exists_grouped (hosts : List AdmissionHost) : ∃ keys,
    Classes.Grouped (failsBy hosts) ((List.range hosts.length).filter (mayFail hosts)) keys (failureGroups hosts) := by
  have hrun : ∀ n, ∃ keys, Classes.Grouped (failsBy hosts) ((List.range n).filter (mayFail hosts)) keys
      ((List.range n).foldl (placeHost hosts) []) := by
    intro n
    induction n with
    | zero => exact ⟨[], .nil, by simp, rfl⟩
    | succ n ih =>
      obtain ⟨keys, h⟩ := ih
      rw [List.range_succ, List.foldl_append, List.filter_append, List.foldl_cons, List.foldl_nil]
      cases hf : mayFail hosts n with
      | false => exact ⟨keys, by simpa [placeHost, hf] using h⟩
      | true =>
        rw [List.filter_cons_of_pos hf, List.filter_nil, placeHost_eq_insert h (by simp) hf]
        exact h.insert n
  exact hrun hosts.length

end Groups

/-! ### Choices of groups -/

section Choices

variable {hosts : List AdmissionHost} {vms : List AdmissionVm} {r : Resource}

private theorem exists_chosen (picks : List Nat) :
    ∃ chosen : List (List Nat), chosen.Sublist (failureGroups hosts) ∧ chosen.length ≤ picks.length ∧
      ((List.range hosts.length).filter (lostWith hosts picks)).Perm chosen.flatten := by
  obtain ⟨keys, h⟩ := exists_grouped hosts
  obtain ⟨chosen, hsub, hlen, hperm⟩ := h.exists_chosen (picks.map (failsBy hosts))
  refine ⟨chosen, hsub, by simpa using hlen, ?_⟩
  rw [List.filter_filter] at hperm
  refine (List.Perm.of_eq (List.filter_congr fun i _ => ?_)).trans hperm
  rw [lostWith, Bool.and_comm]
  refine congrArg (· && mayFail hosts i) (Bool.eq_iff_iff.mpr ?_)
  simp [failTogether_iff]

private theorem fits_iff_cost (lost : Nat → Bool) (l : List Nat) :
    ((l.filter lost).map (reservedOn vms r)).sum ≤
      ((l.filter fun i => survives hosts i && !lost i).map (freeOn hosts vms r)).sum ↔
    ((l.filter lost).map (cost hosts vms r)).sum ≤ ((l.filter (survives hosts)).map (freeOn hosts vms r)).sum := by
  have hdiff : ((l.filter lost).map (cost hosts vms r)).sum - ((l.filter lost).map (reservedOn vms r)).sum =
      ((l.filter (survives hosts)).map (freeOn hosts vms r)).sum -
        ((l.filter fun i => survives hosts i && !lost i).map (freeOn hosts vms r)).sum := by
    induction l with
    | nil => simp
    | cons i l ih =>
      cases hl : lost i <;> cases hs : survives hosts i <;> simp [hl, hs, cost] at ih ⊢ <;> omega
  omega

private theorem cost_flatten (chosen : List (List Nat)) :
    (chosen.flatten.map (cost hosts vms r)).sum = (chosen.map (groupCost hosts vms r)).sum := by
  rw [List.map_flatten, List.sum_flatten, List.map_map]
  rfl

private theorem sound_of_chosen {tolerate : Nat}
    (h : ∀ r, ∀ chosen : List (List Nat), chosen.Sublist (failureGroups hosts) → chosen.length ≤ tolerate →
      (chosen.map (groupCost hosts vms r)).sum ≤
        (((List.range hosts.length).filter (survives hosts)).map (freeOn hosts vms r)).sum) :
    Sound hosts vms tolerate := by
  intro picks hp hlen r
  obtain ⟨chosen, hsub, hle, hperm⟩ := exists_chosen picks
  rw [fits_iff_cost, (hperm.map _).sum_eq, cost_flatten]
  exact h r chosen hsub (hle.trans hlen)

end Choices

/-! ### Sums of 64-bit values -/

private theorem asI64_eq {v : Int} (h : -i64Bound ≤ v) (h' : v < i64Bound) : asI64 v = v := by
  unfold i64Bound at h h'
  exact Int.bmod_eq_of_le (by omega) (by omega)

private theorem sumI64_eq (l : List Int) : sumI64 l = asI64 l.sum := by
  induction l using List.reverseRecOn with
  | nil => rfl
  | append_singleton l v ih =>
    have hprefix : l.foldl (fun acc v => asI64 (acc + v)) 0 = asI64 l.sum := ih
    rw [sumI64, List.foldl_append, hprefix, List.sum_append, List.sum_singleton]
    exact Int.bmod_add_bmod

/-- Entries of some of the hosts do not overflow if those of all hosts do not. -/
private theorem sumI64_map {f : Nat → Int} {l : List Nat} {n : Nat} (hf : ∀ i, 0 ≤ f i)
    (hl : l.Nodup) (hlt : ∀ i ∈ l, i < n) (hb : ((List.range n).map f).sum < i64Bound) :
    sumI64 (l.map f) = (l.map f).sum ∧ 0 ≤ (l.map f).sum ∧ (l.map f).sum < i64Bound := by
  have hpos : ∀ v ∈ (List.range n).map f, 0 ≤ v := List.forall_mem_map.mpr fun i _ => hf i
  have hnonneg : 0 ≤ (l.map f).sum := List.sum_nonneg (List.forall_mem_map.mpr fun i _ => hf i)
  obtain ⟨m, hm, hsub⟩ := List.subperm_of_subset hl fun i hi => List.mem_range.mpr (hlt i hi)
  have hle : (l.map f).sum ≤ ((List.range n).map f).sum := (hm.map f).sum_eq ▸ (hsub.map f).sum_le_sum hpos
  have hsmall := lt_of_le_of_lt hle hb
  exact ⟨(sumI64_eq _).trans (asI64_eq (by unfold i64Bound; omega) hsmall), hnonneg, hsmall⟩

section Exact

variable {hosts : List AdmissionHost} {vms : List AdmissionVm} {r : Resource} {i : Nat}

def slotAmount (e : Int × Int) : Resource → Int
  | .cpu => e.1
  | .memory => e.2

private theorem reservedOn_append (l : List AdmissionVm) (vm : AdmissionVm) :
    reservedOn (l ++ [vm]) r i =
      reservedOn l r i + if vm.isProtected && vm.hostIndex == i then vm.amount r else 0 := by
  unfold reservedOn
  rw [List.filter_append, List.map_append, List.sum_append]
  split <;> simp_all

private theorem reserved_eq (hosts : List AdmissionHost) (vms : List AdmissionVm) :
    reserved hosts vms = (List.range hosts.length).map fun i =>
      (asI64 (reservedOn vms .cpu i), asI64 (reservedOn vms .memory i)) := by
  induction vms using List.reverseRecOn with
  | nil => exact List.ext_getElem (by simp [reserved]) (by simp [reserved, reservedOn, asI64])
  | append_singleton l vm ih =>
    have hstep : reserved hosts (l ++ [vm]) = if vm.isProtected then (reserved hosts l).modify vm.hostIndex
        fun slot => (asI64 (slot.1 + vm.cpu), asI64 (slot.2 + vm.memory)) else reserved hosts l := by
      unfold reserved
      cases h : vm.isProtected <;> simp [h]
    rw [hstep, ih]
    refine List.ext_getElem? fun i => ?_
    cases hp : vm.isProtected with
    | false => simp [reservedOn_append, hp]
    | true =>
      by_cases hi : i < hosts.length <;> by_cases hidx : vm.hostIndex = i <;>
        simp [reservedOn_append, hp, hi, hidx, asI64, Int.bmod_add_bmod, AdmissionVm.amount]

private theorem InRange.reservedOn_nonneg (h : InRange hosts vms) (r : Resource) (i : Nat) : 0 ≤ reservedOn vms r i :=
  List.sum_nonneg (List.forall_mem_map.mpr fun vm hvm => h.vm r vm (List.mem_of_mem_filter hvm))

private theorem freeOn_nonneg (hosts : List AdmissionHost) (vms : List AdmissionVm) (r : Resource) (i : Nat) :
    0 ≤ freeOn hosts vms r i := by
  unfold freeOn
  split
  · exact le_max_right _ _
  · exact le_rfl

private theorem InRange.reservedOn_lt (h : InRange hosts vms) (hi : i < hosts.length) :
    reservedOn vms r i < i64Bound := by
  have := (sumI64_map (h.reservedOn_nonneg r) (List.nodup_singleton i) (by simpa using hi) (h.reserved r)).2.2
  simpa using this

private theorem InRange.slot_eq (h : InRange hosts vms) (hi : i < hosts.length) :
    slotAmount ((Ha.reserved hosts vms).getD i (0, 0)) r = reservedOn vms r i := by
  have hpos := h.reservedOn_nonneg r i
  have hexact : asI64 (reservedOn vms r i) = reservedOn vms r i :=
    asI64_eq (by unfold i64Bound; omega) (h.reservedOn_lt hi)
  rw [reserved_eq, List.getD_eq_getElem?_getD, List.getElem?_map, List.getElem?_range hi]
  cases r <;> exact hexact

private theorem InRange.sum_reserved (h : InRange hosts vms) {l : List Nat} (hl : l.Nodup)
    (hlt : ∀ i ∈ l, i < hosts.length) :
    sumI64 (l.map fun i => slotAmount ((Ha.reserved hosts vms).getD i (0, 0)) r) = (l.map (reservedOn vms r)).sum ∧
      0 ≤ (l.map (reservedOn vms r)).sum ∧ (l.map (reservedOn vms r)).sum < i64Bound := by
  rw [List.map_congr_left fun i hi => h.slot_eq (hlt i hi)]
  exact sumI64_map (h.reservedOn_nonneg r) hl hlt (h.reserved r)

private theorem InRange.left_eq (h : InRange hosts vms) (lost : Nat → Bool) :
    ((((hosts.zip (Ha.reserved hosts vms)).zipIdx.filter fun e => e.1.1.survivor && !lost e.2).map (·.1)).map
      fun e => max (asI64 (e.1.amount r - slotAmount e.2 r)) 0) =
    ((List.range hosts.length).filter fun i => survives hosts i && !lost i).map (freeOn hosts vms r) := by
  have hrange : List.range hosts.length = hosts.zipIdx.map (·.2) := by
    rw [List.zipIdx_map_snd, List.range_eq_range']
  have hzip : (hosts.zip (Ha.reserved hosts vms)).zipIdx =
      hosts.zipIdx.map fun e => ((e.1, (Ha.reserved hosts vms).getD e.2 (0, 0)), e.2) := by
    rw [reserved_eq]
    refine List.ext_getElem (by simp) fun i hi _ => ?_
    have hi : i < hosts.length := by simpa using hi
    simp [hi]
  have hget : ∀ e ∈ hosts.zipIdx, hosts[e.2]? = some e.1 := fun e he => List.mk_mem_zipIdx_iff_getElem?.mp he
  rw [hzip, hrange, List.filter_map, List.filter_map, List.map_map, List.map_map, List.map_map]
  have hfilter : hosts.zipIdx.filter ((fun e : (AdmissionHost × Int × Int) × Nat => e.1.1.survivor && !lost e.2) ∘
      fun e => ((e.1, (Ha.reserved hosts vms).getD e.2 (0, 0)), e.2)) =
      hosts.zipIdx.filter ((fun i => survives hosts i && !lost i) ∘ (·.2)) := by
    refine List.filter_congr fun e he => ?_
    simp [survives, hget e he]
  rw [hfilter]
  refine List.map_congr_left fun e he => ?_
  have he := hget e (List.mem_of_mem_filter he)
  have hi : e.2 < hosts.length := (List.getElem?_eq_some_iff.mp he).1
  have hhost := h.host r e.1 (List.mem_of_getElem? he)
  have hres := h.reservedOn_nonneg r e.2
  have hreslt := h.reservedOn_lt (r := r) hi
  simp only [Function.comp_apply, h.slot_eq hi, freeOn, he]
  rw [asI64_eq (by omega) (by omega)]

private theorem nodup_of_subset_groups {chosen : List (List Nat)} (hsub : chosen.Subperm (failureGroups hosts)) :
    chosen.flatten.Nodup ∧ ∀ i ∈ chosen.flatten, i < hosts.length := by
  obtain ⟨keys, h⟩ := exists_grouped hosts
  obtain ⟨m, hm, hms⟩ := hsub
  have hflat := h.perm_flatten
  have hnodup := (hflat.nodup_iff.mp (List.nodup_range.filter _)).sublist hms.flatten
  refine ⟨hm.flatten.nodup_iff.mp hnodup, fun i hi => ?_⟩
  exact List.mem_range.mp (List.mem_of_mem_filter (hflat.mem_iff.mpr (hms.flatten.mem (hm.flatten.mem_iff.mpr hi))))

end Exact

/-! ### The groups that are considered -/

section Considered

variable {hosts : List AdmissionHost} {vms : List AdmissionVm}

def groupSum (slots : List (Int × Int)) (r : Resource) (g : List Nat) : Int :=
  sumI64 (g.map fun i => slotAmount (slots.getD i (0, 0)) r)

private theorem groupLe_iff {slots : List (Int × Int)} {a b : List Nat} : groupLe slots a b = true ↔
    groupSum slots .memory b < groupSum slots .memory a ∨ groupSum slots .memory b = groupSum slots .memory a ∧
      (groupSum slots .cpu b < groupSum slots .cpu a ∨ groupSum slots .cpu b = groupSum slots .cpu a ∧
        a.headD 0 ≤ b.headD 0) := by
  change (if groupSum slots .memory a ≠ groupSum slots .memory b then
      decide (groupSum slots .memory b < groupSum slots .memory a)
    else if groupSum slots .cpu a ≠ groupSum slots .cpu b then decide (groupSum slots .cpu b < groupSum slots .cpu a)
    else decide (a.headD 0 ≤ b.headD 0)) = true ↔ _
  split_ifs <;> rw [decide_eq_true_iff] <;> omega

instance (slots : List (Int × Int)) : Std.Total fun a b => groupLe slots a b = true where
  total a b := by
    rw [groupLe_iff, groupLe_iff]
    omega

instance (slots : List (Int × Int)) : IsTrans (List Nat) fun a b => groupLe slots a b = true where
  trans a b c := by
    rw [groupLe_iff, groupLe_iff, groupLe_iff]
    omega

def sortedGroups (hosts : List AdmissionHost) (vms : List AdmissionVm) : List (List Nat) :=
  (failureGroups hosts).insertionSort (groupLe (reserved hosts vms) · ·)

private theorem perm_sortedGroups : (sortedGroups hosts vms).Perm (failureGroups hosts) := List.perm_insertionSort _ _

private theorem pairwise_cost (h : InRange hosts vms) (ho : Ordered hosts vms) (r : Resource) :
    (sortedGroups hosts vms).Pairwise fun a b => groupCost hosts vms r b ≤ groupCost hosts vms r a := by
  refine (List.pairwise_insertionSort (groupLe (reserved hosts vms) · ·) (failureGroups hosts)).imp_of_mem ?_
  intro a b ha hb hle
  have ha := perm_sortedGroups.mem_iff.mp ha
  have hb := perm_sortedGroups.mem_iff.mp hb
  have hexact : ∀ r, ∀ g ∈ failureGroups hosts, groupSum (reserved hosts vms) r g = groupReserved vms r g := by
    intro r g hg
    have hchosen := nodup_of_subset_groups (List.singleton_sublist.mpr hg).subperm
    rw [List.flatten_singleton] at hchosen
    exact (h.sum_reserved hchosen.1 hchosen.2).1
  have hle := groupLe_iff.mp hle
  simp only [hexact _ a ha, hexact _ b hb] at hle
  exact ho a ha b hb (by omega) r

private theorem fits_of_sufficient (h : InRange hosts vms) {tolerate : Int}
    (hs : (admission hosts vms tolerate).capacity = .sufficient) (r : Resource) :
    (((sortedGroups hosts vms).take tolerate.toNat).map (groupCost hosts vms r)).sum ≤
      (((List.range hosts.length).filter (survives hosts)).map (freeOn hosts vms r)).sum := by
  have hchosen : ((sortedGroups hosts vms).take tolerate.toNat).Subperm (failureGroups hosts) :=
    (List.take_sublist _ _).subperm.trans perm_sortedGroups.subperm
  obtain ⟨hnodup, hlt⟩ := nodup_of_subset_groups hchosen
  generalize hlost : ((sortedGroups hosts vms).take tolerate.toNat).flatten = lost at hnodup hlt
  have hperm : ((List.range hosts.length).filter (lost.contains ·)).Perm lost := by
    refine (List.perm_ext_iff_of_nodup (List.nodup_range.filter _) hnodup).mpr fun i => ?_
    simpa using hlt i
  have hheadroom : 0 ≤ asI64 (
      sumI64
        (((List.range hosts.length).filter fun i => survives hosts i && !lost.contains i).map (freeOn hosts vms r)) -
      sumI64 (lost.map fun i => slotAmount ((reserved hosts vms).getD i (0, 0)) r)) := by
    rw [← h.left_eq fun i => lost.contains i, ← hlost]
    dsimp only [admission] at hs
    split_ifs at hs with _ _ hroom
    cases r with
    | cpu => exact hroom.2
    | memory => exact hroom.1
  have hfits : (lost.map (reservedOn vms r)).sum ≤
      (((List.range hosts.length).filter fun i => survives hosts i && !lost.contains i).map
        (freeOn hosts vms r)).sum := by
    obtain ⟨hfree, hfree0, hfreelt⟩ := sumI64_map (freeOn_nonneg hosts vms r)
      (List.nodup_range.filter fun i => survives hosts i && !lost.contains i)
      (fun i hi => List.mem_range.mp (List.mem_of_mem_filter hi)) (h.free r)
    obtain ⟨hres, hres0, hreslt⟩ := h.sum_reserved (r := r) hnodup hlt
    rw [hfree, hres, asI64_eq (by omega) (by omega)] at hheadroom
    omega
  rw [← (hperm.map _).sum_eq, fits_iff_cost, (hperm.map _).sum_eq, ← hlost, cost_flatten] at hfits
  exact hfits

end Considered

def rackAndThree : List AdmissionHost :=
  [⟨4, 100, true, true, "rack"⟩, ⟨4, 100, true, true, "rack "⟩, ⟨4, 100, true, true, ""⟩, ⟨4, 100, true, true, ""⟩,
    ⟨4, 100, true, true, ""⟩]

def threeHosts : List AdmissionHost := [⟨1, 100, true, true, ""⟩, ⟨10, 100, true, true, ""⟩, ⟨1, 100, true, true, ""⟩]

end Kcore.Ha
