import Kcore.Ceph.ClusterSpec
import Kcore.Net.IpAddr

/-!
# The monitor map

The controller writes the monitors of a cluster as one text, `id=ip` with commas between them, and the node reads it
again. The name of a monitor is the identifier of the node with every character other than letters, digits and `-`
replaced, and its address is what stands before the first colon. So names may coincide, and an IPv6 address is cut off;
everything else comes back as it was written (`survives_iff`).
-/

namespace Kcore.Ceph

open Checks

def upToColon (s : String) : String := String.ofList (s.toList.takeWhile (· ≠ ':'))

def daemonChar (c : Char) : Char := if c.isAlphanum || c == '-' then c else '-'

def sanitizeDaemonId (nodeId : String) (index : Nat) : String :=
  let id := String.ofList (nodeId.toList.map daemonChar)
  if id = "" then "node-" ++ toString index else id

def monEntry (node : CephClusterNodeSpec) : String :=
  sanitizeDaemonId node.nodeId 0 ++ "=" ++ trim (upToColon node.monAddr)

def monMapString (spec : CephClusterSpec) : String := ",".intercalate (spec.nodes.map monEntry)

structure MonMember where
  id : String
  addr : String
  deriving DecidableEq

def parseMonEntry (part : String) : Except String (Option MonMember) :=
  let part := trim part
  if part = "" then .ok none
  else match splitOnce part '=' with
    | none => .error ("invalid mon_map entry (want id=ip): " ++ part)
    | some (id, addr) =>
      if trim id = "" ∨ trim addr = "" then .error ("invalid mon_map entry: " ++ part)
      else .ok (some ⟨trim id, upToColon (trim addr)⟩)

def parseMonMap (monMap : String) : Except String (List MonMember) := do
  let entries ← (splitAll monMap ',').mapM parseMonEntry
  let out := entries.filterMap id
  if out = [] then .error "mon_map must list at least one id=ip entry" else .ok out

/-- The IP address that a monitor address has: an IPv4 address perhaps with a port behind it, or an IPv6 address, in
brackets if there is a port. -/
inductive MonitorIp (addr : String) : String → Prop
  | v4 (h : parseIpAddr (trim (upToColon addr)) = some .v4) : MonitorIp addr (trim (upToColon addr))
  | v6 (h : parseIpAddr (trim addr) = some .v6) : MonitorIp addr (trim addr)
  | v6Brackets {ip port : String} (h : parseIpAddr ip = some .v6) (haddr : trim addr = "[" ++ ip ++ "]" ++ port) :
    MonitorIp addr ip

/-- The node reads one monitor for each member, under the name by which `reconcile_row` knows it, and the names
differ. -/
def Survives (spec : CephClusterSpec) : Prop :=
  ∃ members, parseMonMap (monMapString spec) = .ok members ∧
    members.map (·.id) = spec.nodes.zipIdx.map (fun (node, index) => sanitizeDaemonId node.nodeId index) ∧
    (members.map (·.id)).Nodup ∧
    List.Forall₂ (fun node member => MonitorIp node.monAddr member.addr) spec.nodes members

/-! ### Addresses -/

namespace IpText

open IpAddr

section

variable {sep c : Char} {cs rest : List Char}

theorem mem_of_readChar (h : readChar sep cs = some rest) (hc : c ∈ cs) : c = sep ∨ c ∈ rest := by
  cases cs with
  | nil => cases hc
  | cons d cs =>
    simp only [readChar] at h
    split at h
    · rename_i hd
      cases h
      exact (List.mem_cons.mp hc).imp (fun hcd => hcd.trans hd) id
    · cases h

theorem mem_of_readOctet (h : readOctet cs = some rest) (hc : c ∈ cs) : c.isDigit = true ∨ c ∈ rest := by
  unfold readOctet at h
  split at h
  · cases h
    rw [← List.takeWhile_append_dropWhile (p := Char.isDigit) (l := cs)] at hc
    exact (List.mem_append.mp hc).imp_left fun hc => List.mem_takeWhile_imp hc
  · cases h

theorem mem_of_readPart {index : Nat} (h : readSeparator '.' (index + 1) readOctet cs = some rest) (hc : c ∈ cs) :
    (c.isDigit = true ∨ c = '.') ∨ c ∈ rest := by
  obtain ⟨mid, hmid, h⟩ := Option.bind_eq_some_iff.mp h
  rcases mem_of_readChar hmid hc with hdot | hc
  · exact .inl (.inr hdot)
  · exact (mem_of_readOctet h hc).imp_left .inl

theorem chars_of_readIpv4Addr (h : readIpv4Addr cs = some []) : cs ≠ [] ∧ ∀ c ∈ cs, c.isDigit = true ∨ c = '.' := by
  refine ⟨?_, fun c hc => ?_⟩
  · rintro rfl
    revert h
    decide
  · obtain ⟨r1, h1, h⟩ := Option.bind_eq_some_iff.mp h
    obtain ⟨r2, h2, h⟩ := Option.bind_eq_some_iff.mp h
    obtain ⟨r3, h3, h⟩ := Option.bind_eq_some_iff.mp h
    rcases mem_of_readOctet h1 hc with hdigit | hc
    · exact .inl hdigit
    rcases mem_of_readPart h2 hc with hpart | hc
    · exact hpart
    rcases mem_of_readPart h3 hc with hpart | hc
    · exact hpart
    exact (mem_of_readPart h hc).resolve_right List.not_mem_nil

theorem chars_of_v4 {s : String} (h : parseIpAddr s = some .v4) :
    s ≠ "" ∧ ∀ c ∈ s.toList, c.isDigit = true ∨ c = '.' := by
  have hread : readIpv4Addr s.toList = some [] := by
    unfold parseIpAddr at h
    split at h
    · rename_i rest hrest
      split at h
      · rename_i hnil
        rw [hrest, hnil]
      · cases h
    · split at h <;> cases h
  obtain ⟨hne, hchars⟩ := chars_of_readIpv4Addr hread
  exact ⟨fun hempty => hne (by rw [hempty]; rfl), hchars⟩

theorem readChar_none (h : sep ∉ cs) : readChar sep cs = none := by
  cases cs with
  | nil => rfl
  | cons d cs =>
    have hd : d ≠ sep := fun hd => h (hd ▸ List.mem_cons_self)
    rw [readChar, if_neg hd]

theorem readGroups_of_no_colon (h : ':' ∉ cs) (index left : Nat) :
    readGroups (index + 1) (left + 1) cs = (index + 1, false, cs) := by
  have hnone : ∀ inner, readSeparator ':' (index + 1) inner cs = none := by
    intro inner
    rw [readSeparator, if_neg (Nat.succ_ne_zero index), readChar_none h]
    rfl
  rw [readGroups, hnone, ite_self, hnone]

theorem colon_of_v6 {s : String} (h : parseIpAddr s = some .v6) : ':' ∈ s.toList := by
  unfold parseIpAddr at h
  split at h
  · split at h <;> cases h
  rename_i hv4
  by_contra hcolon
  -- the text has at most one group, and then `::` should follow
  have hgroups : ∃ size rest, readGroups 0 8 s.toList = (size, false, rest) ∧ size ≠ 8 ∧ ':' ∉ rest := by
    rw [readGroups, readSeparator, readSeparator, if_pos rfl, if_pos rfl, hv4, ite_self]
    cases hgroup : readGroup s.toList with
    | none => exact ⟨0, s.toList, rfl, by decide, hcolon⟩
    | some rest =>
      have hrest : ':' ∉ rest := by
        intro hmem
        simp only [readGroup] at hgroup
        split at hgroup
        · cases hgroup
          exact hcolon ((List.dropWhile_sublist _).mem hmem)
        · cases hgroup
      exact ⟨1, rest, readGroups_of_no_colon hrest 0 6, by decide, hrest⟩
  obtain ⟨size, rest, hgroups, hsize, hrest⟩ := hgroups
  have hnone : readIpv6Addr s.toList = none := by
    unfold readIpv6Addr
    rw [hgroups]
    simp only [if_neg hsize, readChar_none hrest, Bool.false_eq_true, if_false, Option.bind_none]
  rw [hnone] at h
  cases h

end

end IpText

/-! ### Names -/

theorem daemonChar_spec (c : Char) : (daemonChar c).isAlphanum = true ∨ daemonChar c = '-' := by
  unfold daemonChar
  split
  · rename_i h
    exact (Bool.or_eq_true _ _ ▸ h).imp_right eq_of_beq
  · exact .inr rfl

theorem sanitizeDaemonId_eq {nodeId : String} (h : nodeId ≠ "") (index : Nat) :
    sanitizeDaemonId nodeId index = String.ofList (nodeId.toList.map daemonChar) := by
  unfold sanitizeDaemonId
  refine if_neg fun hempty => h ?_
  have hnil : nodeId.toList.map daemonChar = [] := by simpa using congrArg String.toList hempty
  rw [← String.ofList_toList (s := nodeId), List.map_eq_nil_iff.mp hnil, String.ofList_nil]

theorem sanitizeDaemonId_ne_empty {nodeId : String} (h : nodeId ≠ "") : sanitizeDaemonId nodeId 0 ≠ "" := by
  intro hempty
  have hzero : sanitizeDaemonId nodeId 0 = String.ofList (nodeId.toList.map daemonChar) := sanitizeDaemonId_eq h 0
  rw [sanitizeDaemonId, if_pos (hzero ▸ hempty)] at hempty
  exact absurd hempty (by decide)

theorem chars_of_sanitizeDaemonId {nodeId : String} (h : nodeId ≠ "") {c : Char}
    (hc : c ∈ (sanitizeDaemonId nodeId 0).toList) : c.isAlphanum = true ∨ c = '-' := by
  rw [sanitizeDaemonId_eq h, String.toList_ofList] at hc
  obtain ⟨d, -, rfl⟩ := List.mem_map.mp hc
  exact daemonChar_spec d

theorem ne_empty_of_trim {s : String} (h : trim s ≠ "") : s ≠ "" := by
  rintro rfl
  exact h rfl

/-- With identifiers that are not blank, the controller addresses the members by the names in the map. -/
theorem names_eq {nodes : List CephClusterNodeSpec} (h : ∀ node ∈ nodes, trim node.nodeId ≠ "") :
    nodes.zipIdx.map (fun (node, index) => sanitizeDaemonId node.nodeId index) =
      nodes.map fun node => sanitizeDaemonId node.nodeId 0 := by
  have hentry : ∀ entry ∈ nodes.zipIdx,
      sanitizeDaemonId entry.1.nodeId entry.2 = sanitizeDaemonId entry.1.nodeId 0 := by
    intro entry hentry
    have hne := ne_empty_of_trim (h entry.1 (List.fst_mem_of_mem_zipIdx hentry))
    rw [sanitizeDaemonId_eq hne, sanitizeDaemonId_eq hne]
  calc nodes.zipIdx.map (fun (node, index) => sanitizeDaemonId node.nodeId index)
      = nodes.zipIdx.map ((fun node => sanitizeDaemonId node.nodeId 0) ∘ Prod.fst) := List.map_congr_left hentry
    _ = nodes.map fun node => sanitizeDaemonId node.nodeId 0 := by rw [← List.map_map, List.zipIdx_map_fst]

/-! ### The round trip -/

section

variable {node : CephClusterNodeSpec} {spec : CephClusterSpec}

def monMember (node : CephClusterNodeSpec) : MonMember :=
  ⟨sanitizeDaemonId node.nodeId 0, trim (upToColon node.monAddr)⟩

theorem isWhitespace_of_digit_or_dot {c : Char} (h : c.isDigit = true ∨ c = '.') : isWhitespace c = false := by
  rcases h with h | rfl
  · exact isWhitespace_of_isAlphanum (by simp [Char.isAlphanum, h])
  · decide

theorem isWhitespace_of_daemonChar {c : Char} (h : c.isAlphanum = true ∨ c = '-') : isWhitespace c = false := by
  rcases h with h | rfl
  · exact isWhitespace_of_isAlphanum h
  · decide

theorem upToColon_of_not_mem {s : String} (h : ':' ∉ s.toList) : upToColon s = s := by
  have hne : ∀ c ∈ s.toList, decide (c ≠ ':') = true := fun c hc => decide_eq_true fun heq => h (heq ▸ hc)
  unfold upToColon
  rw [List.takeWhile_eq_self_iff.mpr hne, String.ofList_toList]

theorem colon_not_mem_upToColon (s : String) : ':' ∉ (upToColon s).toList := by
  intro hmem
  rw [upToColon, String.toList_ofList] at hmem
  exact absurd (List.mem_takeWhile_imp hmem) (by decide)

theorem mem_monEntry {c : Char} (hc : c ∈ (monEntry node).toList) :
    c ∈ (sanitizeDaemonId node.nodeId 0).toList ∨ c = '=' ∨ c ∈ (trim (upToColon node.monAddr)).toList := by
  simpa [monEntry, or_assoc] using hc

theorem parseMonEntry_monEntry (hid : node.nodeId ≠ "")
    (haddr : parseIpAddr (trim (upToColon node.monAddr)) = some .v4) :
    parseMonEntry (monEntry node) = .ok (some (monMember node)) := by
  obtain ⟨haddrNe, hdigits⟩ := IpText.chars_of_v4 haddr
  have hname : ∀ c ∈ (sanitizeDaemonId node.nodeId 0).toList, c.isAlphanum = true ∨ c = '-' :=
    fun c hc => chars_of_sanitizeDaemonId hid hc
  have htrimName : trim (sanitizeDaemonId node.nodeId 0) = sanitizeDaemonId node.nodeId 0 :=
    trim_of_no_whitespace fun c hc => isWhitespace_of_daemonChar (hname c hc)
  have htrim : trim (monEntry node) = monEntry node := by
    refine trim_of_no_whitespace fun c hc => ?_
    rcases mem_monEntry hc with hc | rfl | hc
    · exact isWhitespace_of_daemonChar (hname c hc)
    · decide
    · exact isWhitespace_of_digit_or_dot (hdigits c hc)
  have hsplit : splitOnce (monEntry node) '=' =
      some (sanitizeDaemonId node.nodeId 0, trim (upToColon node.monAddr)) := by
    refine splitOnce_append (fun hmem => ?_) rfl _
    exact absurd (hname _ hmem) (by decide)
  have hcolon : ':' ∉ (trim (upToColon node.monAddr)).toList := fun hmem => absurd (hdigits _ hmem) (by decide)
  unfold parseMonEntry
  simp only [htrim, hsplit, htrimName, trim_trim, upToColon_of_not_mem hcolon]
  rw [if_neg, if_neg]
  · rfl
  · exact not_or.mpr ⟨sanitizeDaemonId_ne_empty hid, haddrNe⟩
  · intro hempty
    have hmem : '=' ∈ (monEntry node).toList := by simp [monEntry]
    rw [hempty] at hmem
    exact absurd hmem (by decide)

theorem comma_not_mem_monEntry (hid : node.nodeId ≠ "")
    (haddr : parseIpAddr (trim (upToColon node.monAddr)) = some .v4) : ',' ∉ (monEntry node).toList := by
  intro hc
  rcases mem_monEntry hc with hc | hc | hc
  · exact absurd (chars_of_sanitizeDaemonId hid hc) (by decide)
  · exact absurd hc (by decide)
  · exact absurd ((IpText.chars_of_v4 haddr).2 _ hc) (by decide)

theorem parseMonMap_monMapString (hne : spec.nodes ≠ []) (hid : ∀ node ∈ spec.nodes, node.nodeId ≠ "")
    (haddr : ∀ node ∈ spec.nodes, parseIpAddr (trim (upToColon node.monAddr)) = some .v4) :
    parseMonMap (monMapString spec) = .ok (spec.nodes.map monMember) := by
  have hsplit : splitAll (monMapString spec) ',' = spec.nodes.map monEntry := by
    refine splitAll_intercalate rfl (fun hnil => hne (List.map_eq_nil_iff.mp hnil)) fun part hpart => ?_
    obtain ⟨node, hnode, rfl⟩ := List.mem_map.mp hpart
    exact comma_not_mem_monEntry (hid node hnode) (haddr node hnode)
  have hread : (spec.nodes.map monEntry).mapM parseMonEntry = .ok (spec.nodes.map fun node => some (monMember node)) :=
    mapM_map_eq_ok fun node hnode => parseMonEntry_monEntry (hid node hnode) (haddr node hnode)
  have hmembers : (spec.nodes.map fun node => some (monMember node)).filterMap id = spec.nodes.map monMember := by
    rw [List.filterMap_map, ← List.filterMap_eq_map]
    rfl
  unfold parseMonMap
  refine bind_eq_ok.mpr ⟨_, hsplit ▸ hread, ?_⟩
  simp only [hmembers]
  exact if_neg fun hnil => hne (List.map_eq_nil_iff.mp hnil)

theorem colon_not_mem_addr {text : String} {members : List MonMember} (h : parseMonMap text = .ok members) :
    ∀ member ∈ members, ':' ∉ member.addr.toList := by
  obtain ⟨entries, hentries, h⟩ := bind_eq_ok.mp h
  simp only at h
  split at h
  · cases h
  cases h
  intro member hmember
  obtain ⟨entry, hentry, hsome⟩ := List.mem_filterMap.mp hmember
  obtain ⟨part, -, hpart⟩ := exists_of_mem_mapM hentries entry hentry
  rw [show entry = some member from hsome] at hpart
  simp only [parseMonEntry] at hpart
  split at hpart
  · cases hpart
  split at hpart
  · cases hpart
  split at hpart
  · cases hpart
  cases hpart
  exact colon_not_mem_upToColon _

theorem v4_of_no_colon {addr ip : String} (h : MonitorIp addr ip) (hcolon : ':' ∉ ip.toList) :
    parseIpAddr (trim (upToColon addr)) = some .v4 := by
  cases h with
  | v4 h => exact h
  | v6 h | v6Brackets h => exact absurd (IpText.colon_of_v6 h) hcolon

theorem names_and_addrs_of_survives (hids : ∀ node ∈ spec.nodes, trim node.nodeId ≠ "") (h : Survives spec) :
    (spec.nodes.map fun node => sanitizeDaemonId node.nodeId 0).Nodup ∧
      ∀ node ∈ spec.nodes, parseIpAddr (trim (upToColon node.monAddr)) = some .v4 := by
  obtain ⟨members, hread, hid, hnodup, haddr⟩ := h
  rw [hid, names_eq hids] at hnodup
  refine ⟨hnodup, ?_⟩
  -- the addresses were read up to a colon, so they are of the first kind
  have hcolon := (List.forall₂_and_left _ _).mpr ⟨colon_not_mem_addr hread, haddr.flip⟩
  have hv4 := hcolon.flip.imp fun node member ⟨hcolon, hip⟩ => And.intro (v4_of_no_colon hip hcolon) hip
  exact ((List.forall₂_and_left _ _).mp hv4).1

end

/-- The monitor map survives the wire exactly if the members have different names in it and every monitor address is
an IPv4 address, perhaps with a port. -/
theorem survives_iff (spec : CephClusterSpec) (hvalid : validateSpec spec = .ok ()) :
    Survives spec ↔ (spec.nodes.map fun node => sanitizeDaemonId node.nodeId 0).Nodup ∧
      ∀ node ∈ spec.nodes, parseIpAddr (trim (upToColon node.monAddr)) = some .v4 := by
  obtain ⟨hne, -, hids⟩ := validateSpec_eq_ok hvalid
  constructor
  · exact names_and_addrs_of_survives hids
  · rintro ⟨hnodup, haddr⟩
    refine ⟨_, parseMonMap_monMapString hne (fun node hnode => ne_empty_of_trim (hids node hnode)) haddr, ?_, ?_, ?_⟩
    · rw [names_eq hids, List.map_map]
      rfl
    · rwa [List.map_map]
    · rw [List.forall₂_map_right_iff, List.forall₂_same]
      exact fun node hnode => .v4 (haddr node hnode)

def sampleSpec (members : List (String × String)) : CephClusterSpec :=
  { fsid := ""
    publicNetwork := "10.0.0.0/24"
    clusterNetwork := "10.0.1.0/24"
    size := 1
    minSize := 1
    forceWipe := false
    encryptOsds := false
    nodes := members.map fun (nodeId, monAddr) =>
      { nodeId, monAddr, clusterAddr := "", publicIface := "eth0", clusterIface := "eth1", osdDevice := "/dev/sdb"
        osdDevices := [] } }

theorem two_members_survive : Survives (sampleSpec [("hv-1", "10.0.0.1:6789"), ("hv-2", "10.0.0.2")]) :=
  (survives_iff _ (by decide)).mpr ⟨by decide, by decide⟩

/-- Two members that differ in a dot have one name, and an IPv6 address is cut off after its first group. -/
theorem dots_and_ipv6_do_not_survive :
    (validateSpec (sampleSpec [("hv.1", "10.0.0.1"), ("hv-1", "10.0.0.2")]) = .ok () ∧
      ¬Survives (sampleSpec [("hv.1", "10.0.0.1"), ("hv-1", "10.0.0.2")])) ∧
    validateSpec (sampleSpec [("hv-1", "fd00::1")]) = .ok () ∧ parseIpAddr "fd00::1" = some .v6 ∧
      parseMonMap (monMapString (sampleSpec [("hv-1", "fd00::1")])) = .ok [⟨"hv-1", "fd00"⟩] ∧
      ¬Survives (sampleSpec [("hv-1", "fd00::1")]) := by
  refine ⟨⟨by decide, fun h => ?_⟩, by decide, by decide, by decide, fun h => ?_⟩
  · exact absurd (names_and_addrs_of_survives (by decide) h).1 (by decide)
  · exact absurd (names_and_addrs_of_survives (by decide) h).2 (by decide)

end Kcore.Ceph
