import Mathlib.Algebra.Order.Ring.Nat
import Mathlib.Data.String.Basic
import Kcore.Lib.Sorting
import Kcore.Net.Ipv4

/-!
# Pod subnets

Each member of a cluster gets a /24 for its pods: the third octet of the cluster's range is replaced by the position of
the member among the sorted ids of all members. `subnets_good_iff` says for which ranges and members these subnets are
disjoint and inside the range, and which members can come and go without moving another.
-/

namespace Kcore.Kubernetes

/-! ### The subnet of a member -/

def nodePodSubnet (clusterCidr : String) (index : Nat) : String :=
  let base := (splitAll clusterCidr '/').headD ""
  let octets := (splitAll base '.').filterMap (parseUnsigned 4294967296)
  match octets with
  | [o0, o1, _, _] =>
    if 255 < index then "10.245." ++ toString index ++ ".0/24"
    else toString o0 ++ "." ++ toString o1 ++ "." ++ toString index ++ "." ++ toString 0 ++ "/24"
  | _ => "10.245." ++ toString index ++ ".0/24"

def memberIndex (members : List String) (nodeId : String) : Nat :=
  let ordered := members.insertionSort (· ≤ ·)
  if nodeId ∈ ordered then ordered.idxOf nodeId else 0

def podSubnet (clusterCidr : String) (members : List String) (nodeId : String) : String :=
  nodePodSubnet clusterCidr (memberIndex members nodeId)

/-! ### Ranges -/

structure Ipv4Cidr where
  a : Nat
  b : Nat
  c : Nat
  d : Nat
  bits : Nat
  octets : a < 256 ∧ b < 256 ∧ c < 256 ∧ d < 256
  short : bits ≤ 32

namespace Ipv4Cidr

def text (r : Ipv4Cidr) : String := dotted r.a r.b r.c r.d ++ "/" ++ toString r.bits

def address (r : Ipv4Cidr) : Nat := ((r.a * 256 + r.b) * 256 + r.c) * 256 + r.d

def Has (r : Ipv4Cidr) (ip : Nat) : Prop := ip / 2 ^ (32 - r.bits) = r.address / 2 ^ (32 - r.bits)

end Ipv4Cidr

def Inside (subnet : String) (r : Ipv4Cidr) : Prop := ∃ s : Ipv4Cidr, s.text = subnet ∧ ∀ ip, s.Has ip → r.Has ip

def NoCommonAddress (subnet subnet' : String) : Prop :=
  ∃ s s' : Ipv4Cidr, s.text = subnet ∧ s'.text = subnet' ∧ ∀ ip, ¬ (s.Has ip ∧ s'.Has ip)

/-- The subnets of the members, and what becomes of them when another member joins or leaves. -/
structure SubnetsGood (r : Ipv4Cidr) (members : List String) (other : String) : Prop where
  inside : ∀ m ∈ members, Inside (podSubnet r.text members m) r
  apart : ∀ m ∈ members, ∀ m' ∈ members, m ≠ m' →
    NoCommonAddress (podSubnet r.text members m) (podSubnet r.text members m')
  joins : other ∉ members → ∀ m ∈ members, podSubnet r.text (other :: members) m = podSubnet r.text members m
  leaves : other ∈ members → ∀ m ∈ members.erase other,
    podSubnet r.text (members.erase other) m = podSubnet r.text members m

def HasRoom (r : Ipv4Cidr) (n : Nat) : Prop :=
  r.bits ≤ 24 ∧ n ≤ 256 ∧ (16 < r.bits → r.c < 2 ^ (24 - r.bits) ∧ n ≤ 2 ^ (24 - r.bits))

/-! ### Texts -/

theorem head_splitAll_slash {x : String} (hx : '/' ∉ x.toList) (y : String) :
    (splitAll (x ++ "/" ++ y) '/').headD "" = x := by
  have hchars : (x ++ "/" ++ y).toList = x.toList ++ '/' :: y.toList := by simp
  have hno : ∀ c ∈ x.toList, decide (c = '/') = false := fun c hc => by simpa using fun e : c = '/' => hx (e ▸ hc)
  unfold splitAll
  rw [hchars, List.splitOnP_append_cons_of_forall_mem hno '/' (by simp)]
  simp

theorem slash_not_mem_dotted (a b c d : Nat) : '/' ∉ (dotted a b c d).toList := by
  have hno : ∀ n : Nat, '/' ∉ (toString n).toList := fun n h => absurd (isDigit_of_mem_toString h) (by decide)
  simp only [dotted, String.toList_append, List.mem_append, hno, false_or, or_false]
  decide

theorem Ipv4Cidr.text_inj {r s : Ipv4Cidr} (h : r.text = s.text) :
    (r.a = s.a ∧ r.b = s.b ∧ r.c = s.c ∧ r.d = s.d) ∧ r.bits = s.bits := by
  have hbase := head_splitAll_slash (slash_not_mem_dotted r.a r.b r.c r.d) (toString r.bits)
  have hdot : dotted r.a r.b r.c r.d = dotted s.a s.b s.c s.d := by
    have hbase' := head_splitAll_slash (slash_not_mem_dotted s.a s.b s.c s.d) (toString s.bits)
    rw [← hbase, ← hbase']
    exact congrArg (fun t => (splitAll t '/').headD "") h
  refine ⟨dotted_inj hdot, toString_nat_inj ?_⟩
  unfold text at h
  rw [hdot] at h
  exact (String.append_right_inj _).mp h

theorem nodePodSubnet_text (r : Ipv4Cidr) (index : Nat) :
    nodePodSubnet r.text index =
      (if 255 < index then dotted 10 245 index 0 else dotted r.a r.b index 0) ++ "/" ++ toString 24 := by
  have hbase : (splitAll r.text '/').headD "" = dotted r.a r.b r.c r.d :=
    head_splitAll_slash (slash_not_mem_dotted r.a r.b r.c r.d) (toString r.bits)
  have hread : ∀ n : Nat, n < 256 → parseUnsigned 4294967296 (toString n) = some n := fun n hn =>
    parseUnsigned_toString (by omega)
  have hend : "/" ++ toString 24 = "/24" := by decide
  obtain ⟨ha, hb, hc, hd⟩ := r.octets
  unfold nodePodSubnet
  rw [hbase]
  dsimp only
  rw [splitAll_dotted]
  simp only [List.filterMap_cons, List.filterMap_nil, hread _ ha, hread _ hb, hread _ hc, hread _ hd]
  have hassoc : ∀ x y z : String, x ++ y ++ z = x ++ (y ++ z) := fun _ _ _ => String.append_assoc
  rw [hassoc _ "/", hend]
  split
  · have hten : (toString 10 : String) ++ "." ++ toString 245 ++ "." = "10.245." := by decide
    have hzero : "." ++ toString 0 = ".0" := by decide
    have hlast : ".0" ++ "/24" = ".0/24" := by decide
    rw [dotted, hten, hassoc _ ".", hzero, hassoc _ ".0", hlast]
  · rfl

def slice (r : Ipv4Cidr) (index : Nat) (h : index < 256) : Ipv4Cidr where
  a := r.a
  b := r.b
  c := index
  d := 0
  bits := 24
  octets := ⟨r.octets.1, r.octets.2.1, h, by decide⟩
  short := by decide

variable {r : Ipv4Cidr} {index : Nat}

theorem nodePodSubnet_slice (r : Ipv4Cidr) (h : index < 256) : nodePodSubnet r.text index = (slice r index h).text := by
  rw [nodePodSubnet_text, if_neg (by omega)]
  rfl

theorem index_lt_of_text {s : Ipv4Cidr} (h : s.text = nodePodSubnet r.text index) : index < 256 := by
  by_contra hge
  rw [nodePodSubnet_text, if_pos (by omega)] at h
  have hdot : dotted s.a s.b s.c s.d = dotted 10 245 index 0 := by
    rw [← head_splitAll_slash (slash_not_mem_dotted s.a s.b s.c s.d) (toString s.bits),
      ← head_splitAll_slash (slash_not_mem_dotted 10 245 index 0) (toString 24)]
    exact congrArg (fun t => (splitAll t '/').headD "") h
  have hc := (dotted_inj hdot).2.2.1
  have := s.octets.2.2.1
  omega

theorem nodePodSubnet_inj (r : Ipv4Cidr) {i j : Nat} (h : nodePodSubnet r.text i = nodePodSubnet r.text j) : i = j := by
  rw [nodePodSubnet_text, nodePodSubnet_text] at h
  have hdot := (String.append_left_inj _).mp ((String.append_left_inj _).mp h)
  split at hdot <;> split at hdot <;> exact (dotted_inj hdot).2.2.1

/-! ### Ranges of a member -/

theorem slice_has (h : index < 256) (ip : Nat) :
    (slice r index h).Has ip ↔ ip / 256 = (r.a * 256 + r.b) * 256 + index := by
  have haddr : (slice r index h).address = ((r.a * 256 + r.b) * 256 + index) * 256 := by
    simp [Ipv4Cidr.address, slice]
  have hbits : 2 ^ (32 - (slice r index h).bits) = 256 := by simp [slice]
  rw [Ipv4Cidr.Has, haddr, hbits, Nat.mul_div_cancel _ (by decide)]

theorem inside_slice_iff (h : index < 256) :
    (∀ ip, (slice r index h).Has ip → r.Has ip) ↔
      r.bits ≤ 24 ∧ (16 < r.bits → index / 2 ^ (24 - r.bits) = r.c / 2 ^ (24 - r.bits)) := by
  simp only [slice_has]
  have hd := r.octets.2.2.2
  have hnet : r.address / 256 = (r.a * 256 + r.b) * 256 + r.c := by
    unfold Ipv4Cidr.address
    omega
  by_cases hbits : r.bits ≤ 24
  · -- The last octet does not count: compare what is above it.
    have hpow : 2 ^ (32 - r.bits) = 256 * 2 ^ (24 - r.bits) := by
      rw [show 32 - r.bits = 8 + (24 - r.bits) by omega, Nat.pow_add]
    have hone : (∀ ip, ip / 256 = (r.a * 256 + r.b) * 256 + index → r.Has ip) ↔
        ((r.a * 256 + r.b) * 256 + index) / 2 ^ (24 - r.bits) =
          ((r.a * 256 + r.b) * 256 + r.c) / 2 ^ (24 - r.bits) := by
      simp only [Ipv4Cidr.Has, hpow, ← Nat.div_div_eq_div_mul, hnet]
      constructor
      · intro hall
        have := hall (((r.a * 256 + r.b) * 256 + index) * 256) (Nat.mul_div_cancel _ (by decide))
        rwa [Nat.mul_div_cancel _ (by decide)] at this
      · intro heq ip hip
        rw [hip, heq]
    rw [hone, and_iff_right hbits]
    by_cases hlow : 16 < r.bits
    · have hk : 256 = 2 ^ (24 - r.bits) * 2 ^ (r.bits - 16) := by
        rw [← Nat.pow_add, show 24 - r.bits + (r.bits - 16) = 8 by omega]
      have hdiv : ∀ x y, (x * 256 + y) / 2 ^ (24 - r.bits) = x * 2 ^ (r.bits - 16) + y / 2 ^ (24 - r.bits) := by
        intro x y
        rw [hk, Nat.mul_left_comm x, Nat.mul_add_div (Nat.two_pow_pos _)]
      rw [hdiv, hdiv, Nat.add_left_cancel_iff]
      simp [hlow]
    · have hk : 2 ^ (24 - r.bits) = 256 * 2 ^ (16 - r.bits) := by
        rw [show 24 - r.bits = 8 + (16 - r.bits) by omega, Nat.pow_add]
      have hc := r.octets.2.2.1
      have htop : ∀ x y, y < 256 → (x * 256 + y) / 2 ^ (24 - r.bits) = x / 2 ^ (16 - r.bits) := by
        intro x y hy
        rw [hk, ← Nat.div_div_eq_div_mul, show (x * 256 + y) / 256 = x by omega]
      rw [htop _ _ h, htop _ _ hc]
      simp [hlow]
  · refine iff_of_false (fun hall => ?_) (fun hr => hbits hr.1)
    -- The first and the last address of the subnet are too far apart.
    have hfar : ∀ n k : Nat, 0 < k → k ≤ 255 → n / k ≠ (n + 255) / k := by
      intro n k hk hle
      have hstep : n / k + 1 ≤ (n + 255) / k := by
        rw [← Nat.add_div_right n hk]
        exact Nat.div_le_div_right (by omega)
      omega
    have hsmall : 2 ^ (32 - r.bits) ≤ 2 ^ 7 := Nat.pow_le_pow_right (by decide) (by omega)
    have hfirst := hall (((r.a * 256 + r.b) * 256 + index) * 256) (by omega)
    have hlast := hall (((r.a * 256 + r.b) * 256 + index) * 256 + 255) (by omega)
    exact hfar _ _ (Nat.two_pow_pos _) (hsmall.trans (by decide)) (hfirst.trans hlast.symm)

theorem inside_iff :
    Inside (nodePodSubnet r.text index) r ↔
      index < 256 ∧ r.bits ≤ 24 ∧ (16 < r.bits → index / 2 ^ (24 - r.bits) = r.c / 2 ^ (24 - r.bits)) := by
  constructor
  · rintro ⟨s, htext, hin⟩
    have hlt := index_lt_of_text htext
    rw [nodePodSubnet_slice r hlt] at htext
    obtain ⟨⟨ha, hb, hc, hd⟩, hbits⟩ := Ipv4Cidr.text_inj htext
    have hs : s = slice r index hlt := by
      cases s
      simp only [slice] at ha hb hc hd hbits
      subst ha hb hc hd hbits
      rfl
    rw [hs] at hin
    exact ⟨hlt, (inside_slice_iff hlt).mp hin⟩
  · rintro ⟨hlt, hin⟩
    exact ⟨slice r index hlt, (nodePodSubnet_slice r hlt).symm, (inside_slice_iff hlt).mpr hin⟩

/-! ### Positions -/

section Members

variable {members : List String} {m : String}

theorem memberIndex_of_mem (hm : m ∈ members) :
    memberIndex members m = (members.insertionSort (· ≤ ·)).idxOf m := by
  simp [memberIndex, hm]

theorem memberIndex_lt (hm : m ∈ members) : memberIndex members m < members.length := by
  have hlt := List.idxOf_lt_length_of_mem ((List.mem_insertionSort (· ≤ ·)).mpr hm)
  rwa [List.length_insertionSort, ← memberIndex_of_mem hm] at hlt

theorem memberIndex_inj {m' : String} (hm : m ∈ members) (hm' : m' ∈ members)
    (h : memberIndex members m = memberIndex members m') : m = m' := by
  rw [memberIndex_of_mem hm, memberIndex_of_mem hm'] at h
  exact (List.idxOf_inj ((List.mem_insertionSort (· ≤ ·)).mpr hm)).mp h

theorem exists_member (hnodup : members.Nodup) {i : Nat} (hi : i < members.length) :
    ∃ m ∈ members, memberIndex members m = i := by
  have hsorted : (members.insertionSort (· ≤ ·)).Nodup := (List.perm_insertionSort _ _).nodup_iff.mpr hnodup
  rw [← List.length_insertionSort (· ≤ ·) members] at hi
  have hmem := (List.mem_insertionSort (· ≤ ·)).mp (List.getElem_mem hi)
  exact ⟨_, hmem, (memberIndex_of_mem hmem).trans (hsorted.idxOf_getElem i hi)⟩

theorem memberIndex_cons {other : String} (hnodup : members.Nodup) (hother : other ∉ members) (hm : m ∈ members) :
    memberIndex (other :: members) m = memberIndex members m ↔ m < other := by
  rw [memberIndex_of_mem hm, memberIndex_of_mem (List.mem_cons_of_mem _ hm)]
  exact Sorting.idxOf_insertionSort_cons hnodup hother hm

theorem memberIndex_perm {members' : List String} (h : members.Perm members') (m : String) :
    memberIndex members m = memberIndex members' m := by
  unfold memberIndex
  rw [List.Perm.eq_of_pairwise' (List.pairwise_insertionSort (· ≤ ·) members)
    (List.pairwise_insertionSort (· ≤ ·) members')
    (((List.perm_insertionSort _ _).trans h).trans (List.perm_insertionSort _ _).symm)]

theorem memberIndex_erase {other : String} (hnodup : members.Nodup) (hother : other ∈ members)
    (hm : m ∈ members.erase other) : memberIndex (members.erase other) m = memberIndex members m ↔ m < other := by
  rw [memberIndex_perm (List.perm_cons_erase hother), eq_comm]
  exact memberIndex_cons (hnodup.erase other) (fun h => (hnodup.mem_erase_iff.mp h).1 rfl) hm

end Members

theorem podSubnet_eq_iff (r : Ipv4Cidr) (members members' : List String) (m : String) :
    podSubnet r.text members m = podSubnet r.text members' m ↔ memberIndex members m = memberIndex members' m :=
  ⟨nodePodSubnet_inj r, fun h => by rw [podSubnet, h, podSubnet]⟩

theorem inside_all_iff {members : List String} (hnodup : members.Nodup) :
    (∀ m ∈ members, Inside (podSubnet r.text members m) r) ↔ (members ≠ [] → HasRoom r members.length) := by
  simp only [podSubnet, inside_iff]
  constructor
  · intro h hne
    have hat : ∀ i < members.length, i < 256 ∧ r.bits ≤ 24 ∧
        (16 < r.bits → i / 2 ^ (24 - r.bits) = r.c / 2 ^ (24 - r.bits)) := by
      intro i hi
      obtain ⟨m, hm, rfl⟩ := exists_member hnodup hi
      exact h m hm
    have hpos := List.length_pos_iff.mpr hne
    obtain ⟨-, hbits, hzero⟩ := hat 0 hpos
    obtain ⟨hlt, -, hlast⟩ := hat (members.length - 1) (by omega)
    refine ⟨hbits, by omega, fun hlow => ?_⟩
    have hk := Nat.two_pow_pos (24 - r.bits)
    have hc : r.c / 2 ^ (24 - r.bits) = 0 := by rw [← hzero hlow, Nat.zero_div]
    have hn := (hlast hlow).trans hc
    rw [Nat.div_eq_zero_iff_lt hk] at hc hn
    exact ⟨hc, by omega⟩
  · intro h m hm
    obtain ⟨hbits, hn, hlow⟩ := h (List.ne_nil_of_mem hm)
    have hi := memberIndex_lt hm
    refine ⟨by omega, hbits, fun hb => ?_⟩
    obtain ⟨hc, hk⟩ := hlow hb
    rw [Nat.div_eq_of_lt hc, Nat.div_eq_of_lt (by omega)]

/-- The subnets are disjoint, inside the range and not moved when a member joins or leaves exactly if there is room for
all of them from the third octet 0 on and no member that stays comes after that one. -/
theorem subnets_good_iff (r : Ipv4Cidr) (members : List String) (other : String) (hnodup : members.Nodup) :
    SubnetsGood r members other ↔
      (members ≠ [] → HasRoom r members.length) ∧ ∀ m ∈ members, m ≠ other → m < other := by
  constructor
  · intro h
    refine ⟨(inside_all_iff hnodup).mp h.inside, ?_⟩
    intro m hm hne
    by_cases hother : other ∈ members
    · have hme : m ∈ members.erase other := (List.mem_erase_of_ne hne).mpr hm
      exact (memberIndex_erase hnodup hother hme).mp ((podSubnet_eq_iff r _ _ m).mp (h.leaves hother m hme))
    · exact (memberIndex_cons hnodup hother hm).mp ((podSubnet_eq_iff r _ _ m).mp (h.joins hother m hm))
  · rintro ⟨hfits, hlast⟩
    have hinside := (inside_all_iff hnodup).mpr hfits
    refine ⟨hinside, ?_, ?_, ?_⟩
    · intro m hm m' hm' hne
      obtain ⟨hlt, -⟩ := inside_iff.mp (hinside m hm)
      obtain ⟨hlt', -⟩ := inside_iff.mp (hinside m' hm')
      refine ⟨_, _, (nodePodSubnet_slice r hlt).symm, (nodePodSubnet_slice r hlt').symm, ?_⟩
      rintro ip ⟨h, h'⟩
      rw [slice_has] at h h'
      exact hne (memberIndex_inj hm hm' (by omega))
    · intro hother m hm
      have hne : m ≠ other := fun e => hother (e ▸ hm)
      exact (podSubnet_eq_iff r _ _ m).mpr ((memberIndex_cons hnodup hother hm).mpr (hlast m hm hne))
    · intro hother m hm
      have hmem := hnodup.mem_erase_iff.mp hm
      exact (podSubnet_eq_iff r _ _ m).mpr ((memberIndex_erase hnodup hother hm).mpr (hlast m hmem.2 hmem.1))

def defaultRange : Ipv4Cidr := ⟨10, 245, 0, 0, 16, by decide, by decide⟩

theorem last_member_joins : ["n1", "n2"].Nodup ∧ SubnetsGood defaultRange ["n1", "n2"] "n3" := by
  refine ⟨by decide, (subnets_good_iff defaultRange ["n1", "n2"] "n3" (by decide)).mpr ⟨fun _ => ?_, by decide⟩⟩
  exact ⟨by decide, by decide, fun h => absurd h (by decide)⟩

/-- A member that comes before another takes its subnet. -/
theorem first_member_joins : ¬ SubnetsGood defaultRange ["n2"] "n1" ∧
    podSubnet defaultRange.text ["n2"] "n2" = podSubnet defaultRange.text ["n1", "n2"] "n1" := by
  constructor
  · intro h
    have hsame := h.joins (by decide) "n2" (by decide)
    revert hsame
    decide
  · decide

end Kcore.Kubernetes
