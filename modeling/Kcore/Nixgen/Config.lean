import Kcore.Store.Vm

/-!
# The configuration of a node

The networks in what `generate_node_config_inner` writes: the Nix module that a node is configured with, as the text the
controller pushes. Stored texts are written through `nix_escape`, names of VMs through `sanitize_nix_attr_key`, numbers
as decimals and the port columns of a network as they are.
-/

namespace Kcore.Nixgen

/-! ### What the module is generated from -/

structure VxlanMeta where
  vni : Int
  peers : List String
  localIp : String

structure SecurityGroupResolvedRule where
  protocol : String
  hostPort : Int
  targetPort : Int
  sourceCidr : String
  targetIp : String
  enableDnat : Bool

/-! ### Helpers -/

def nixEscapeChars : List Char → List Char
  | '\\' :: rest => '\\' :: '\\' :: nixEscapeChars rest
  | '"' :: rest => '\\' :: '"' :: nixEscapeChars rest
  | '$' :: '{' :: rest => '\\' :: '$' :: '{' :: nixEscapeChars rest
  | c :: rest => c :: nixEscapeChars rest
  | [] => []

def nixEscape (s : String) : String := String.ofList (nixEscapeChars s.toList)

def sanitizeNixAttrKey (s : String) : String :=
  String.ofList (s.toList.map fun c => if c.isAlphanum || c = '-' || c = '_' then c else '-')

/-- `{indent}{field} = "{nix_escape(value)}";` -/
def textLine (indent field value : String) : String := indent ++ field ++ " = \"" ++ nixEscape value ++ "\";\n"

/-- `{indent}{field} = {value};` -/
def plainLine (indent field value : String) : String := indent ++ field ++ " = " ++ value ++ ";\n"

def boolText (b : Bool) : String := if b then "true" else "false"

/-! ### Networks -/

def portList (column : String) : List String := ((splitAll column ',').map trim).filter (· ≠ "")

def portLine (field column : String) : String :=
  if column = "" ∨ portList column = [] then ""
  else plainLine "      " field ("[ " ++ " ".intercalate (portList column) ++ " ]")

def policyLines (policy : NetworkPolicyRow) : String :=
  (if policy.eastWest then "      eastWestFirewall = true;\n" else "") ++
  (if policy.ipv6Prefix = "" then ""
    else textLine "      " "ipv6Prefix" policy.ipv6Prefix ++ textLine "      " "ipv6Gateway" policy.ipv6Gateway)

def vxlanLines (vxlan : VxlanMeta) : String :=
  plainLine "      " "vni" (toString vxlan.vni) ++
  plainLine "      " "vxlanPeers"
    ("[ " ++ " ".intercalate (vxlan.peers.map fun p => "\"" ++ nixEscape p ++ "\"") ++ " ]") ++
  textLine "      " "vxlanLocalIp" vxlan.localIp

def ruleLines (rule : SecurityGroupResolvedRule) : String :=
  "        \x7b\n" ++
  textLine "          " "protocol" rule.protocol ++
  plainLine "          " "hostPort" (toString rule.hostPort) ++
  plainLine "          " "targetPort" (toString rule.targetPort) ++
  textLine "          " "sourceCidr" rule.sourceCidr ++
  textLine "          " "targetIp" rule.targetIp ++
  plainLine "          " "enableDnat" (boolText rule.enableDnat) ++
  "        \x7d\n"

def rulesLines (rules : List SecurityGroupResolvedRule) : String :=
  if rules = [] then ""
  else "      securityGroupRules = [\n" ++ String.join (rules.map ruleLines) ++ "      ];\n"

def networkBlock (net : NetworkRow) (policy : Option NetworkPolicyRow) (vxlan : Option VxlanMeta)
    (rules : List SecurityGroupResolvedRule) : String :=
  "    networks.\"" ++ nixEscape net.name ++ "\" = \x7b\n" ++
  textLine "      " "externalIP" net.externalIp ++
  textLine "      " "gatewayIP" net.gatewayIp ++
  (if net.internalNetmask = "255.255.255.0" then "" else textLine "      " "internalNetmask" net.internalNetmask) ++
  portLine "allowedTCPPorts" net.allowedTcpPorts ++
  portLine "allowedUDPPorts" net.allowedUdpPorts ++
  (if 0 < net.vlanId then plainLine "      " "vlanId" (toString net.vlanId) else "") ++
  (if net.networkType = "nat" then "" else textLine "      " "networkType" net.networkType) ++
  (if net.enableOutboundNat then "" else "      enableOutboundNat = false;\n") ++
  (policy.map policyLines).getD "" ++
  (vxlan.map vxlanLines).getD "" ++
  rulesLines rules ++
  "    \x7d;\n"

end Kcore.Nixgen
