import Kcore.Lib.Checks
import Kcore.Net.Unique
import Kcore.Nixgen.Config

/-!
# The block of a replicated network

The controller that creates a network stores its ports joined by commas and sends them to its peers as a JSON array. A
peer stores the array as text, brackets and all, and the generator of the node configuration splits either text at its
commas. The bracket that opens the array ends up in the block of the network, so the two blocks are told apart by
counting brackets, whatever else they have in common.
-/

namespace Kcore.Nixgen

open Checks (bind_eq_ok)

def networkCreateBody (req : CreateNetworkRequest) (row : NetworkRow) : Value := .object [
  ("name", .string row.name),
  ("nodeId", .string row.nodeId),
  ("externalIp", .string req.externalIp),
  ("gatewayIp", .string req.gatewayIp),
  ("internalNetmask", .string req.internalNetmask),
  ("allowedTcpPorts", .array (req.allowedTcpPorts.map fun p => .number (.int p))),
  ("allowedUdpPorts", .array (req.allowedUdpPorts.map fun p => .number (.int p))),
  ("networkType", .string row.networkType),
  ("vlanId", .number (.int req.vlanId)),
  ("enableOutboundNat", .bool row.enableOutboundNat),
  ("vni", .number (.int row.vni)),
  ("nextIp", .number (.int 2)),
  ("ipv6Prefix", .string ((req.policy.map fun p => p.1).getD "")),
  ("ipv6Gateway", .string ((req.policy.map fun p => p.2.1).getD "")),
  ("eastWestFirewall", .bool ((req.policy.map fun p => p.2.2).getD false))]

/-! ### Brackets of a text -/

def brackets (s : String) : Nat := s.toList.count '['

@[simp] theorem brackets_append (s t : String) : brackets (s ++ t) = brackets s + brackets t := by
  simp [brackets]

theorem brackets_nixEscape (s : String) : brackets (nixEscape s) = brackets s := by
  have hchars : ∀ l : List Char, (nixEscapeChars l).count '[' = l.count '[' := by
    intro l
    fun_induction nixEscapeChars l with
    | case1 l ih => simp [ih]
    | case2 l ih => simp [ih]
    | case3 l ih => simp [ih]
    | case4 c l _ _ _ ih => simp [List.count_cons, ih]
    | case5 => rfl
  simp only [brackets, nixEscape, String.toList_ofList, hchars]

theorem brackets_eq_zero {s : String} (h : '[' ∉ s.toList) : brackets s = 0 := List.count_eq_zero.mpr h

theorem brackets_toString (n : Int) : brackets (toString n) = 0 := by
  have hnat : ∀ m : Nat, brackets (toString m) = 0 := by
    intro m
    refine brackets_eq_zero fun h => ?_
    rw [Nat.toString_eq_ofList_toDigits, String.toList_ofList] at h
    exact absurd (Nat.isDigit_of_mem_toDigits (by decide) (by decide) h) (by decide)
  cases n with
  | ofNat m => exact hnat m
  | negSucc m =>
    change brackets ("-" ++ toString (m + 1)) = 0
    rw [brackets_append, hnat]
    rfl

theorem brackets_trim (s : String) : brackets (trim s) = brackets s := by
  have hdrop : ∀ l : List Char, (l.dropWhile isWhitespace).count '[' = l.count '[' := by
    intro l
    induction l with
    | nil => rfl
    | cons c l ih =>
      rw [List.dropWhile_cons]
      split
      · rename_i hc
        have hne : c ≠ '[' := by
          rintro rfl
          exact absurd hc (by decide)
        rw [ih, List.count_cons_of_ne hne]
      · rfl
  simp only [brackets, trim, String.toList_ofList, List.count_reverse, hdrop]

theorem brackets_intercalate (sep : String) (hsep : brackets sep = 0) (l : List String) :
    brackets (sep.intercalate l) = (l.map brackets).sum := by
  induction l with
  | nil => rfl
  | cons s l ih =>
    rcases l with _ | ⟨t, l⟩
    · simp
    · rw [String.intercalate_cons_cons, brackets_append, brackets_append, hsep, ih]
      simp

theorem brackets_splitAll (s : String) : ((splitAll s ',').map brackets).sum = brackets s := by
  have hsplit : ∀ l : List Char, ((l.splitOnP (· = ',')).map (List.count '[')).sum = l.count '[' := by
    intro l
    induction l with
    | nil => rfl
    | cons c l ih =>
      rw [List.splitOnP_cons_eq_if_modifyHead]
      split
      · rename_i hc
        rw [List.map_cons, List.sum_cons, ih, of_decide_eq_true hc]
        simp
      · obtain ⟨head, tail, hparts⟩ := List.exists_cons_of_ne_nil (List.splitOnP_ne_nil (· = ',') l)
        rw [hparts] at ih ⊢
        simp only [List.modifyHead_cons, List.map_cons, List.sum_cons, List.count_cons] at ih ⊢
        omega
  have hmap : (splitAll s ',').map brackets = (s.toList.splitOnP (· = ',')).map (List.count '[') := by
    simp [splitAll, brackets, Function.comp_def]
  rw [hmap, hsplit]
  rfl

theorem brackets_portList (column : String) : ((portList column).map brackets).sum = brackets column := by
  have hfilter : ∀ l : List String, ((l.filter (· ≠ "")).map brackets).sum = (l.map brackets).sum := by
    intro l
    induction l with
    | nil => rfl
    | cons t l ih =>
      by_cases ht : t = ""
      · subst ht
        simpa [brackets] using ih
      · simpa [ht] using ih
  unfold portList
  rw [hfilter, List.map_map, ← brackets_splitAll]
  simp [Function.comp_def, brackets_trim]

/-! ### Brackets of a block -/

theorem brackets_textLine (indent field value : String) :
    brackets (textLine indent field value) = brackets indent + brackets field + brackets value := by
  have hfixed : brackets " = \"" = 0 ∧ brackets "\";\n" = 0 := by decide
  simp [textLine, brackets_nixEscape, hfixed]

theorem brackets_plainLine (indent field value : String) :
    brackets (plainLine indent field value) = brackets indent + brackets field + brackets value := by
  have hfixed : brackets " = " = 0 ∧ brackets ";\n" = 0 := by decide
  simp [plainLine, hfixed]

theorem brackets_portLine {field : String} (hfield : brackets field = 0) (column : String) :
    brackets (portLine field column) = if portList column = [] then 0 else 1 + brackets column := by
  have hfixed : brackets "      " = 0 ∧ brackets "[ " = 1 ∧ brackets " ]" = 0 := by decide
  unfold portLine
  by_cases hports : portList column = []
  · rw [if_pos (.inr hports), if_pos hports]
    rfl
  · have hcolumn : column ≠ "" := by
      rintro rfl
      exact hports (by decide)
    rw [if_neg (by simp [hcolumn, hports]), if_neg hports, brackets_plainLine, brackets_append, brackets_append,
      brackets_intercalate " " (by decide), brackets_portList, hfield, hfixed.1, hfixed.2.1, hfixed.2.2]
    omega

theorem brackets_portLine_lt {field : String} (hfield : brackets field = 0) (ports : List Int) :
    brackets (portLine field (",".intercalate (ports.map toString))) <
      brackets (portLine field (jsonAsCompactString (.array (ports.map fun p => .number (.int p))))) := by
  have hplain : brackets (",".intercalate (ports.map toString)) = 0 := by
    have hzero : (brackets ∘ toString : Int → Nat) = fun _ => 0 := funext brackets_toString
    rw [brackets_intercalate "," (by decide), List.map_map, hzero]
    simp
  have harray : 1 ≤ brackets (jsonAsCompactString (.array (ports.map fun p => .number (.int p)))) := by
    have hopen : brackets "[" = 1 := by decide
    simp only [jsonAsCompactString, Value.asStr, Option.getD_none, Value.compact, brackets_append, hopen]
    omega
  have hports : portList (jsonAsCompactString (.array (ports.map fun p => .number (.int p)))) ≠ [] := by
    intro hempty
    have hsum := brackets_portList (jsonAsCompactString (.array (ports.map fun p => .number (.int p))))
    rw [hempty] at hsum
    simp only [List.map_nil, List.sum_nil] at hsum
    omega
  rw [brackets_portLine hfield, brackets_portLine hfield, if_neg hports, hplain]
  split_ifs <;> omega

theorem brackets_netmaskLine (mask : String) :
    brackets (if mask = "255.255.255.0" then "" else textLine "      " "internalNetmask" mask) = brackets mask := by
  split_ifs with h
  · rw [h]
    decide
  · rw [brackets_textLine]
    have hfixed : brackets "      " = 0 ∧ brackets "internalNetmask" = 0 := by decide
    omega

theorem brackets_vlanLine (vlanId : Int) :
    brackets (if 0 < vlanId then plainLine "      " "vlanId" (toString vlanId) else "") = 0 := by
  split_ifs
  · rw [brackets_plainLine, brackets_toString]
    decide
  · rfl

theorem brackets_check {req : CreateNetworkRequest} {row : NetworkRow} (h : req.check = .ok row) :
    ∃ name externalIp gatewayIp internalNetmask networkType,
      row = req.row name externalIp gatewayIp internalNetmask networkType ∧
        brackets externalIp = brackets req.externalIp ∧ brackets gatewayIp = brackets req.gatewayIp ∧
        brackets internalNetmask ≤ brackets req.internalNetmask := by
  have hipv4 : ∀ {value field text : String}, validateIpv4 value field = .ok text →
      brackets text = brackets value := by
    intro value field text hok
    unfold validateIpv4 at hok
    dsimp only at hok
    split_ifs at hok
    cases hok
    exact brackets_trim value
  have hmask : ∀ {value text : String}, validateNetmask value = .ok text → brackets text = brackets value := by
    intro value text hok
    unfold validateNetmask at hok
    obtain ⟨t, ht, hok⟩ := bind_eq_ok.mp hok
    split at hok
    · cases hok
    · split_ifs at hok
      cases hok
      exact hipv4 ht
  unfold CreateNetworkRequest.check at h
  simp only [bind_eq_ok] at h
  obtain ⟨name, -, externalIp, hexternal, gatewayIp, hgateway, h⟩ := h
  split at h
  · obtain ⟨internalNetmask, hnetmask, h⟩ := bind_eq_ok.mp h
    obtain ⟨networkType, -, hrow⟩ := bind_eq_ok.mp h
    cases hnetmask
    cases hrow
    have hzero : brackets "255.255.255.0" = 0 := by decide
    exact ⟨name, externalIp, gatewayIp, _, networkType, rfl, hipv4 hexternal, hipv4 hgateway, by omega⟩
  · obtain ⟨internalNetmask, hnetmask, h⟩ := bind_eq_ok.mp h
    obtain ⟨networkType, -, hrow⟩ := bind_eq_ok.mp h
    cases hrow
    exact ⟨name, externalIp, gatewayIp, _, networkType, rfl, hipv4 hexternal, hipv4 hgateway, (hmask hnetmask).le⟩

theorem brackets_networkBlock_lt {net net' : NetworkRow} (policy : Option NetworkPolicyRow) (vxlan : Option VxlanMeta)
    (rules : List SecurityGroupResolvedRule) (hname : net'.name = net.name)
    (hexternal : brackets net.externalIp = brackets net'.externalIp)
    (hgateway : brackets net.gatewayIp = brackets net'.gatewayIp)
    (hmask : brackets net.internalNetmask ≤ brackets net'.internalNetmask)
    (htype : net'.networkType = net.networkType) (hnat : net'.enableOutboundNat = net.enableOutboundNat)
    (htcp : brackets (portLine "allowedTCPPorts" net.allowedTcpPorts) <
      brackets (portLine "allowedTCPPorts" net'.allowedTcpPorts))
    (hudp : brackets (portLine "allowedUDPPorts" net.allowedUdpPorts) <
      brackets (portLine "allowedUDPPorts" net'.allowedUdpPorts)) :
    brackets (networkBlock net policy vxlan rules) < brackets (networkBlock net' policy vxlan rules) := by
  unfold networkBlock
  rw [hname, htype, hnat]
  simp only [brackets_append, brackets_netmaskLine, brackets_vlanLine, brackets_textLine]
  omega

/-- The row that a peer materialises: addresses as they were asked for, and ports as the text of an array. -/
theorem networkFromBody_createBody (req : CreateNetworkRequest) (row : NetworkRow) :
    networkFromBody (networkCreateBody req row) row.nodeId row.name =
      { name := row.name
        externalIp := req.externalIp
        gatewayIp := req.gatewayIp
        internalNetmask := req.internalNetmask
        nodeId := row.nodeId
        allowedTcpPorts := jsonAsCompactString (.array (req.allowedTcpPorts.map fun p => .number (.int p)))
        allowedUdpPorts := jsonAsCompactString (.array (req.allowedUdpPorts.map fun p => .number (.int p)))
        vlanId := asI32 ((Value.asI64 (.number (.int req.vlanId))).getD 0)
        networkType := row.networkType
        enableOutboundNat := row.enableOutboundNat
        vni := asI32 ((Value.asI64 (.number (.int row.vni))).getD 0)
        nextIp := 2 } := by
  simp [networkFromBody, networkCreateBody, Value.str, Value.i64, Value.boolean, Value.get, Value.asStr, Value.asBool]
  decide

theorem get_applyNetworkCreate {c : HeadContext} {nodeId name : String} (hnode : c.body.str "nodeId" = some nodeId)
    (hname : c.body.str "name" = some name) (d : DomainTables) :
    ((applyNetworkCreate c).exec d).2.networks.get (name, nodeId) = some (networkFromBody c.body nodeId name) := by
  have hnetworks := congrArg Prod.fst (addressTables_applyNetworkCreate hnode hname d)
  exact (congrArg (Keyed.Table.get · (name, nodeId)) hnetworks).trans (Keyed.Table.get_put_self _ _)

theorem replicated_block_ne (req : CreateNetworkRequest) (row : NetworkRow) (h : req.check = .ok row)
    (policy : Option NetworkPolicyRow) (vxlan : Option VxlanMeta) (rules : List SecurityGroupResolvedRule) :
    networkBlock row policy vxlan rules ≠
      networkBlock (networkFromBody (networkCreateBody req row) row.nodeId row.name) policy vxlan rules := by
  obtain ⟨name, externalIp, gatewayIp, internalNetmask, networkType, rfl, hexternal, hgateway, hmask⟩ :=
    brackets_check h
  rw [networkFromBody_createBody]
  intro heq
  refine absurd (congrArg brackets heq) (Nat.ne_of_lt ?_)
  exact brackets_networkBlock_lt policy vxlan rules rfl hexternal hgateway hmask rfl rfl
    (brackets_portLine_lt (by decide) req.allowedTcpPorts) (brackets_portLine_lt (by decide) req.allowedUdpPorts)

/-- Whatever the tables of a peer hold, the row that it stores for a created network makes another block. -/
theorem replicated_network_differs (req : CreateNetworkRequest) (row : NetworkRow) (h : req.check = .ok row)
    (d : DomainTables) (resourceKey freshId : String) (policy : Option NetworkPolicyRow) (vxlan : Option VxlanMeta)
    (rules : List SecurityGroupResolvedRule) :
    ∃ row', ((applyNetworkCreate ⟨resourceKey, networkCreateBody req row, freshId⟩).exec d).2.networks.get
        (row.name, row.nodeId) = some row' ∧
      networkBlock row policy vxlan rules ≠ networkBlock row' policy vxlan rules :=
  ⟨_, get_applyNetworkCreate rfl rfl d, replicated_block_ne req row h policy vxlan rules⟩

def webNetwork : CreateNetworkRequest where
  name := "web"
  externalIp := "192.0.2.7"
  gatewayIp := "10.0.7.1"
  internalNetmask := "255.255.255.0"
  nodeId := "node-a"
  networkType := "nat"
  enableOutboundNat := true
  allowedTcpPorts := [80, 443]
  allowedUdpPorts := []
  vlanId := 0
  policy := none

def webNetworkRow : NetworkRow := webNetwork.row "web" "192.0.2.7" "10.0.7.1" "255.255.255.0" "nat"

theorem web_network_differs :
    webNetwork.check = .ok webNetworkRow ∧
      ∃ row', ((applyNetworkCreate ⟨"network/node-a/web", networkCreateBody webNetwork webNetworkRow, "id"⟩).exec
          .empty).2.networks.get ("web", "node-a") = some row' ∧
        networkBlock webNetworkRow none none [] ≠ networkBlock row' none none [] :=
  ⟨by decide, replicated_network_differs webNetwork webNetworkRow (by decide) _ _ _ _ _ _⟩

/-- The ports of the network are a list in a list on the peer, and a list that was empty is not. -/
theorem web_ports_nested :
    networkBlock webNetworkRow none none [] =
        "    networks.\"web\" = \x7b\n      externalIP = \"192.0.2.7\";\n      gatewayIP = \"10.0.7.1\";\n" ++
          "      allowedTCPPorts = [ 80 443 ];\n    \x7d;\n" ∧
      networkBlock (networkFromBody (networkCreateBody webNetwork webNetworkRow) "node-a" "web") none none [] =
        "    networks.\"web\" = \x7b\n      externalIP = \"192.0.2.7\";\n      gatewayIP = \"10.0.7.1\";\n" ++
          "      allowedTCPPorts = [ [80 443] ];\n      allowedUDPPorts = [ [] ];\n    \x7d;\n" ∧
      networkBlock webNetworkRow none none [] ≠
        networkBlock (networkFromBody (networkCreateBody webNetwork webNetworkRow) "node-a" "web") none none [] := by
  decide +kernel

end Kcore.Nixgen
