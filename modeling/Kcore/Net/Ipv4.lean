import Kcore.Text

/-!
# IPv4 addresses as texts

Addresses are stored as dotted texts and never as numbers. The allocator takes the text of a gateway up to its
last dot and puts a counter behind it; `Slash24` is what the result has to be.
-/

namespace Kcore

def dotted (a b c d : Nat) : String :=
  toString a ++ "." ++ toString b ++ "." ++ toString c ++ "." ++ toString d

/-- One octet of `Ipv4Addr::from_str`: a number below 256 in decimal, without leading zeros. -/
def octet (part : List Char) : Option Nat :=
  let n := part.foldl (fun n c => 10 * n + (c.toNat - '0'.toNat)) 0
  if n < 256 ∧ (toString n).toList = part then some n else none

def parseIpv4 (s : String) : Option (Nat × Nat × Nat × Nat) :=
  match (s.toList.splitOn '.').map octet with
  | [some a, some b, some c, some d] => some (a, b, c, d)
  | _ => none

def networkPrefix (gatewayIp : String) : String := ((rsplitOnce gatewayIp '.').map (·.1)).getD "10.0.0"

def hostAddress (gatewayIp : String) (host : Int) : String := networkPrefix gatewayIp ++ "." ++ toString host

def Slash24 (gatewayIp ip : String) : Prop :=
  ∃ a b c g host : Nat, a < 256 ∧ b < 256 ∧ c < 256 ∧ g < 256 ∧ 1 ≤ host ∧ host ≤ 254 ∧
    gatewayIp = dotted a b c g ∧ ip = dotted a b c host

theorem octet_eq_some {part : List Char} {n : Nat} (h : octet part = some n) :
    n < 256 ∧ (toString n).toList = part := by
  unfold octet at h
  dsimp only at h
  split at h
  · rename_i hn
    cases h
    exact hn
  · cases h

theorem parseIpv4_eq_some {s : String} {a b c d : Nat} (h : parseIpv4 s = some (a, b, c, d)) :
    (a < 256 ∧ b < 256 ∧ c < 256 ∧ d < 256) ∧ s = dotted a b c d := by
  unfold parseIpv4 at h
  split at h
  · rename_i a' b' c' d' hparts
    cases h
    obtain ⟨pa, ha, pb, hb, pc, hc, pd, hd, hsplit⟩ : ∃ pa, octet pa = some a ∧ ∃ pb, octet pb = some b ∧
        ∃ pc, octet pc = some c ∧ ∃ pd, octet pd = some d ∧ s.toList.splitOn '.' = [pa, pb, pc, pd] := by
      obtain ⟨pa, _, h1, ha, hparts⟩ := List.map_eq_cons_iff.mp hparts
      obtain ⟨pb, _, h2, hb, hparts⟩ := List.map_eq_cons_iff.mp hparts
      obtain ⟨pc, _, h3, hc, hparts⟩ := List.map_eq_cons_iff.mp hparts
      obtain ⟨pd, _, h4, hd, hparts⟩ := List.map_eq_cons_iff.mp hparts
      exact ⟨pa, ha, pb, hb, pc, hc, pd, hd, by rw [h1, h2, h3, h4, List.map_eq_nil_iff.mp hparts]⟩
    obtain ⟨hla, rfl⟩ := octet_eq_some ha
    obtain ⟨hlb, rfl⟩ := octet_eq_some hb
    obtain ⟨hlc, rfl⟩ := octet_eq_some hc
    obtain ⟨hld, rfl⟩ := octet_eq_some hd
    refine ⟨⟨hla, hlb, hlc, hld⟩, String.toList_inj.mp ?_⟩
    have hjoin : ['.'].intercalate (s.toList.splitOn '.') = s.toList := List.intercalate_splitOn '.'
    rw [hsplit] at hjoin
    rw [← hjoin]
    simp [dotted, List.intercalate]
  · cases h

theorem isDigit_of_mem_toString {n : Nat} {c : Char} (h : c ∈ (toString n).toList) : c.isDigit = true := by
  rw [Nat.toString_eq_ofList_toDigits, String.toList_ofList] at h
  exact Nat.isDigit_of_mem_toDigits (by decide) (by decide) h

theorem not_mem_toString_nat (n : Nat) : '.' ∉ (toString n).toList := fun h =>
  absurd (isDigit_of_mem_toString h) (by decide)

theorem splitAll_dotted (a b c d : Nat) :
    splitAll (dotted a b c d) '.' = [toString a, toString b, toString c, toString d] := by
  have hparts : ∀ l ∈ [(toString a).toList, (toString b).toList, (toString c).toList, (toString d).toList],
      '.' ∉ l := by
    simp only [List.forall_mem_cons, List.not_mem_nil, false_imp_iff, implies_true, and_true]
    exact ⟨not_mem_toString_nat a, not_mem_toString_nat b, not_mem_toString_nat c, not_mem_toString_nat d⟩
  have hsplit := List.splitOn_intercalate '.' hparts (by simp)
  have hchars : (dotted a b c d).toList =
      ['.'].intercalate [(toString a).toList, (toString b).toList, (toString c).toList, (toString d).toList] := by
    simp [dotted, List.intercalate]
  have hsame : (fun c : Char => decide (c = '.')) = fun c => c == '.' := by
    funext c
    simp [beq_eq_decide]
  unfold splitAll
  rw [hsame, hchars, ← List.splitOn, hsplit]
  simp only [List.map_cons, List.map_nil, String.ofList_toList]

theorem parseUnsigned_toString {limit n : Nat} (h : n < limit) : parseUnsigned limit (toString n) = some n := by
  have hdigits : ∀ c ∈ (toString n).toList, c.isDigit = true := fun _ => isDigit_of_mem_toString
  have hne : (toString n).toList ≠ [] := by
    rw [Nat.toString_eq_ofList_toDigits, String.toList_ofList]
    exact Nat.toDigits_ne_nil
  have hplus : stripPrefix (toString n) "+" = none := by
    unfold stripPrefix
    rw [if_neg]
    intro hp
    obtain ⟨t, ht⟩ := List.isPrefixOf_iff_prefix.mp hp
    have := hdigits '+' (by rw [← ht]; simp)
    exact absurd this (by decide)
  have hvalue : (toString n).toList.foldl (fun n c => n * 10 + (c.toNat - '0'.toNat)) 0 = n := by
    rw [Nat.toString_eq_ofList_toDigits, String.toList_ofList]
    conv => rhs; rw [← Nat.ofDigitChars_ten_toDigits (n := n)]
    simp [Nat.ofDigitChars, Nat.mul_comm]
  unfold parseUnsigned
  rw [hplus]
  dsimp only [Option.getD_none]
  rw [if_pos ⟨fun he => hne (by rw [he]; rfl), by simpa using hdigits⟩, hvalue, if_pos h]

theorem toString_nat_inj {m n : Nat} (h : toString m = toString n) : m = n := by
  have hm := parseUnsigned_toString (Nat.lt_succ_of_le (Nat.le_max_left m n))
  have hn := parseUnsigned_toString (Nat.lt_succ_of_le (Nat.le_max_right m n))
  rw [h, hn] at hm
  exact (Option.some.inj hm).symm

theorem dotted_inj {a b c d a' b' c' d' : Nat} (h : dotted a b c d = dotted a' b' c' d') :
    a = a' ∧ b = b' ∧ c = c' ∧ d = d' := by
  have hsplit := splitAll_dotted a b c d
  rw [h, splitAll_dotted] at hsplit
  simp only [List.cons.injEq, and_true] at hsplit
  obtain ⟨ha, hb, hc, hd⟩ := hsplit
  exact ⟨(toString_nat_inj ha).symm, (toString_nat_inj hb).symm, (toString_nat_inj hc).symm, (toString_nat_inj hd).symm⟩

theorem networkPrefix_dotted (a b c g : Nat) :
    networkPrefix (dotted a b c g) = toString a ++ "." ++ toString b ++ "." ++ toString c := by
  have hchars : (dotted a b c g).toList =
      (toString a ++ "." ++ toString b ++ "." ++ toString c).toList ++ '.' :: (toString g).toList := by
    simp [dotted]
  have hlast : ∀ x ∈ (toString g).toList.reverse, decide (x ≠ '.') = true := by
    intro x hx
    have hne : x ≠ '.' := fun heq => not_mem_toString_nat g (heq ▸ List.mem_reverse.mp hx)
    simp [hne]
  unfold networkPrefix rsplitOnce
  rw [hchars, if_pos (by simp), Option.map_some, Option.getD_some, List.reverse_append, List.reverse_cons,
    List.append_assoc, List.dropWhile_append_of_pos hlast]
  simp only [List.cons_append, List.nil_append, List.dropWhile_cons, ne_eq, not_true_eq_false, decide_false,
    Bool.false_eq_true, if_false, List.drop_one, List.tail_cons, List.reverse_reverse, String.ofList_toList]

theorem hostAddress_ne_empty (gatewayIp : String) (host : Int) : hostAddress gatewayIp host ≠ "" := by
  intro h
  have hdot : '.' ∈ (hostAddress gatewayIp host).toList := by simp [hostAddress]
  rw [h] at hdot
  simp at hdot

theorem hostAddress_inj {gatewayIp : String} {j k : Int} (hj : 0 ≤ j) (hk : 0 ≤ k)
    (h : hostAddress gatewayIp j = hostAddress gatewayIp k) : j = k := by
  obtain ⟨m, rfl⟩ := Int.eq_ofNat_of_zero_le hj
  obtain ⟨n, rfl⟩ := Int.eq_ofNat_of_zero_le hk
  have htext : Nat.repr m = Nat.repr n := (String.append_right_inj _).mp h
  rw [Nat.repr_eq_ofList_toDigits, Nat.repr_eq_ofList_toDigits, String.ofList_inj] at htext
  rw [← Nat.ofDigitChars_ten_toDigits (n := m), htext, Nat.ofDigitChars_ten_toDigits]

theorem slash24_hostAddress {gatewayIp : String} {host : Int} (hg : (parseIpv4 gatewayIp).isSome) (hpos : 1 ≤ host)
    (hle : host ≤ 254) : Slash24 gatewayIp (hostAddress gatewayIp host) := by
  obtain ⟨⟨a, b, c, g⟩, hparse⟩ := Option.isSome_iff_exists.mp hg
  obtain ⟨⟨ha, hb, hc, hg'⟩, rfl⟩ := parseIpv4_eq_some hparse
  obtain ⟨k, rfl⟩ := Int.eq_ofNat_of_zero_le (by omega : 0 ≤ host)
  refine ⟨a, b, c, g, k, ha, hb, hc, hg', by omega, by omega, rfl, ?_⟩
  rw [hostAddress, networkPrefix_dotted]
  rfl

example : parseIpv4 "10.50.0.1" = some (10, 50, 0, 1) := by decide

example : parseIpv4 "10.050.0.1" = none := by decide

end Kcore
