import Kcore.Lib.Checks
import Kcore.Lib.Run
import Kcore.Net.IpAddr
import Kcore.Pki.Inventory
import Mathlib.Logic.Relation

/-!
# Certificates for nodes

A node asks the controller to sign a CSR (`SignNodeCsr`) or for a new certificate with its key (`RenewNodeCert`). The
caller is checked by the beginning of its CN. Whose certificate is issued depends on the `node_id` of the request alone:
the CN is made from the address in the row of that node, and that address is what some node wrote when it registered
(`RegisterNode`). Along a run in which the nodes register their own address and ask for the nodes that they registered
themselves, the key of a node leads to certificates of this node only.
-/

namespace Kcore.Pki

open Checks Keyed

inductive Code where
  | notFound
  | permissionDenied
  | unavailable
  | internal
  | invalidArgument

structure Status where
  code : Code
  message : String

inductive WebTokenKind where
  | pending
  | session
  | api

/-- Who calls on a listener with TLS: an operator with a token of the web listener, or the holder of a client
certificate, which may have no CN that can be read. -/
inductive Caller where
  | web (kind : WebTokenKind) (operator : String)
  | certificate (cn : Option String) (serial : Nat)

def Caller.peerCn : Caller → Option String
  | .web .pending operator => some ("web-pending:" ++ operator)
  | .web _ operator => some ("kctl:" ++ operator)
  | .certificate cn _ => cn

def cnNodePrefix : String := "kcore-node-"

def isAuthorized (cn : String) (allowed : List String) : Bool :=
  allowed.any fun pattern => if pattern.toList.getLast? = some '-' then startsWith cn pattern else cn = pattern

def requirePeer (caller : Caller) (allowed : List String) : Except Status Unit :=
  match caller.peerCn with
  | none => .ok ()
  | some cn =>
    if isAuthorized cn allowed then .ok ()
    else .error ⟨.permissionDenied, "peer '" ++ cn ++ "' is not authorized for this operation"⟩

/-! ### Signing -/

/-- `SanType`. An address is given by its text. -/
inductive San where
  | dnsName (name : String)
  | ipAddress (text : String)
  | other
  deriving DecidableEq

/-- A CSR that was read. The CN is there if it has one of the encodings that are compared. -/
structure Csr where
  commonName : Option String
  subjectAltNames : List San
  publicKey : Nat

structure CertificateParams where
  commonName : String
  subjectAltNames : List San

structure Leaf extends CertificateParams where
  publicKey : Nat

structure SubCaState where
  certPem : String
  keyPem : String

def SubCaState.isAvailable (ca : SubCaState) : Bool := ca.certPem ≠ "" && ca.keyPem ≠ ""

/-- What `rcgen` answers. -/
structure Rcgen where
  csrFromPem : String → Except String Csr
  dnsName : String → Except String Unit
  keyFromPem : String → Except String Unit
  issuerFromPem : String → Except String Unit
  generate : Except String Nat
  signed : Except String Unit

variable (lib : Rcgen)

def orMessage {α ε : Type} (f : String → ε) (r : Except String α) : Except ε α :=
  match r with
  | .ok a => .ok a
  | .error e => .error (f e)

def nodeCn (host : String) : String := "kcore-node-" ++ host

/-- `node_cert_params`. A host has no colon, so that an address is an IPv4 address, which has one text. -/
def nodeCertParams (host : String) : Except String CertificateParams :=
  match parseIpAddr host with
  | some _ => .ok ⟨nodeCn host, [.ipAddress host]⟩
  | none => do
    orMessage ("invalid hostname: " ++ ·) (lib.dnsName host)
    return ⟨nodeCn host, [.dnsName host]⟩

def loadIssuer (ca : SubCaState) : Except String Unit := do
  orMessage ("loading sub-CA key: " ++ ·) (lib.keyFromPem ca.keyPem)
  orMessage ("loading sub-CA cert: " ++ ·) (lib.issuerFromPem ca.certPem)

def signNodeCert (ca : SubCaState) (host : String) : Except String Leaf := do
  let params ← nodeCertParams lib host
  loadIssuer lib ca
  let key ← orMessage ("generating node key: " ++ ·) lib.generate
  orMessage ("signing node cert: " ++ ·) lib.signed
  return ⟨params, key⟩

/-- The checks of `sign_node_csr`: what the CSR asks for has to be what is issued. -/
def checkCsr (csr : Csr) (host : String) : Except String Unit := do
  if let some requested := csr.commonName then
    if requested ≠ nodeCn host then
      throw ("CSR subject CN '" ++ requested ++ "' does not match expected '" ++ nodeCn host ++ "'")
  csr.subjectAltNames.forM fun san =>
    if san = .dnsName host ∨ san = .ipAddress host then .ok ()
    else .error ("CSR requests a subjectAltName that is not '" ++ host ++ "'")

def signCsr (ca : SubCaState) (csrPem host : String) : Except String Leaf := do
  let csr ← orMessage ("invalid CSR: " ++ ·) (lib.csrFromPem csrPem)
  checkCsr csr host
  let params ← nodeCertParams lib host
  loadIssuer lib ca
  orMessage ("signing CSR: " ++ ·) lib.signed
  return ⟨params, csr.publicKey⟩

/-! ### Handlers -/

structure NodeRow where
  id : String
  address : String
  approvalStatus : String

structure Issuing where
  nodes : Table NodeRow.id
  inv : Inventory
  subCa : SubCaState

structure Chance where
  serial : Nat
  notAfter : Int
  dbError : Option String

inductive IssueRequest where
  | signNodeCsr (nodeId csrPem : String)
  | renewNodeCert (nodeId : String)

def IssueRequest.nodeId : IssueRequest → String
  | .signNodeCsr nodeId _ | .renewNodeCert nodeId => nodeId

def hostOf (address : String) : String := String.ofList (address.toList.takeWhile (· ≠ ':'))

def identityKind (cn : String) : IdentityKind :=
  if startsWith cn cnNodePrefix then .node
  else if startsWith cn "kcore-controller-" then .controller
  else if cn = "kctl" ∨ startsWith cn "kctl:" then .operator
  else .unknown

def certRow (leaf : Leaf) (nodeId : String) (c : Chance) : CertRow :=
  ⟨c.serial, leaf.commonName, identityKind leaf.commonName, nodeId, c.notAfter, false, none⟩

def approvedNode (s : Issuing) (nodeId : String) : Except Status NodeRow :=
  match s.nodes.get nodeId with
  | none => .error ⟨.notFound, "node '" ++ nodeId ++ "' not found"⟩
  | some node =>
    if node.approvalStatus = "approved" then .ok node
    else .error ⟨.permissionDenied, "node '" ++ nodeId ++ "' is not approved (status: " ++ node.approvalStatus ++ ")"⟩

def nodeHost (node : NodeRow) : Except Status String :=
  if hostOf node.address = "" then
    .error ⟨.internal, "cannot determine host from node address '" ++ node.address ++ "'"⟩
  else .ok (hostOf node.address)

def availableCa (s : Issuing) (what : String) : Except Status SubCaState :=
  if s.subCa.isAvailable then .ok s.subCa
  else .error ⟨.unavailable, "sub-CA is not configured on this controller; certificate " ++ what ++ " is unavailable"⟩

/-- `renew_node_cert`. The new certificate is recorded if that is possible. -/
def renewNodeCert (s : Issuing) (caller : Caller) (nodeId : String) (c : Chance) : Except Status (Leaf × Issuing) := do
  requirePeer caller [cnNodePrefix]
  let node ← approvedNode s nodeId
  let ca ← availableCa s "renewal"
  let host ← nodeHost node
  let leaf ← orMessage (fun e => ⟨.internal, "signing node cert: " ++ e⟩) (signNodeCert lib ca host)
  let inv := if c.dbError.isSome then s.inv else s.inv.recordSignedChain (certRow leaf nodeId c)
  return (leaf, { s with inv })

def signNodeCsr (s : Issuing) (caller : Caller) (nodeId csrPem : String) (c : Chance) :
    Except Status (Leaf × Issuing) := do
  requirePeer caller [cnNodePrefix]
  let node ← approvedNode s nodeId
  if trim csrPem = "" then throw ⟨.invalidArgument, "csr_pem is required"⟩
  let ca ← availableCa s "rotation"
  let host ← nodeHost node
  let leaf ← orMessage (fun e => ⟨.invalidArgument, "signing node CSR: " ++ e⟩) (signCsr lib ca csrPem host)
  if let some e := c.dbError then throw ⟨.internal, "recording issued certificate: " ++ e⟩
  return (leaf, { s with inv := s.inv.recordSignedChain (certRow leaf nodeId c) })

def issue (s : Issuing) (caller : Caller) (c : Chance) : IssueRequest → Except Status (Leaf × Issuing)
  | .signNodeCsr nodeId csrPem => signNodeCsr lib s caller nodeId csrPem c
  | .renewNodeCert nodeId => renewNodeCert lib s caller nodeId c

/-! ### Whose certificate it is -/

variable {lib} {host : String} {leaf : Leaf} {node : NodeRow} {s : Issuing}

private theorem ok_of_orMessage {α ε : Type} {f : String → ε} {r : Except String α} {a : α}
    (h : orMessage f r = .ok a) : r = .ok a := by
  cases r with
  | ok b =>
    cases h
    rfl
  | error e => exact nomatch h

theorem nodeCertParams_eq_ok {params : CertificateParams} (h : nodeCertParams lib host = .ok params) :
    params = ⟨nodeCn host, [.ipAddress host]⟩ ∨ params = ⟨nodeCn host, [.dnsName host]⟩ := by
  unfold nodeCertParams at h
  split at h
  · exact .inl (Except.ok.inj h).symm
  · obtain ⟨_, -, h⟩ := bind_eq_ok.mp h
    exact .inr (Except.ok.inj h).symm

private theorem commonName_nodeCertParams {params : CertificateParams} (h : nodeCertParams lib host = .ok params) :
    params.commonName = nodeCn host := by
  obtain rfl | rfl := nodeCertParams_eq_ok h <;> rfl

private theorem commonName_signNodeCert {ca : SubCaState} (h : signNodeCert lib ca host = .ok leaf) :
    leaf.commonName = nodeCn host := by
  obtain ⟨params, hparams, h⟩ := bind_eq_ok.mp h
  obtain ⟨_, -, h⟩ := bind_eq_ok.mp h
  obtain ⟨key, -, h⟩ := bind_eq_ok.mp h
  obtain ⟨_, -, h⟩ := bind_eq_ok.mp h
  cases h
  exact commonName_nodeCertParams hparams

theorem signCsr_eq_ok {ca : SubCaState} {csrPem : String} (h : signCsr lib ca csrPem host = .ok leaf) :
    ∃ csr params, lib.csrFromPem csrPem = .ok csr ∧ checkCsr csr host = .ok () ∧ nodeCertParams lib host = .ok params ∧
      leaf = ⟨params, csr.publicKey⟩ := by
  obtain ⟨csr, hcsr, h⟩ := bind_eq_ok.mp h
  obtain ⟨_, hcheck, h⟩ := bind_eq_ok.mp h
  obtain ⟨params, hparams, h⟩ := bind_eq_ok.mp h
  obtain ⟨_, -, h⟩ := bind_eq_ok.mp h
  obtain ⟨_, -, h⟩ := bind_eq_ok.mp h
  exact ⟨csr, params, ok_of_orMessage hcsr, hcheck, hparams, (Except.ok.inj h).symm⟩

private theorem host_of_nodeHost (h : nodeHost node = .ok host) : host = hostOf node.address := by
  unfold nodeHost at h
  split_ifs at h
  exact (Except.ok.inj h).symm

private theorem get_of_approvedNode {nodeId : String} (h : approvedNode s nodeId = .ok node) :
    s.nodes.get nodeId = some node := by
  unfold approvedNode at h
  cases hrow : s.nodes.get nodeId with
  | none =>
    rw [hrow] at h
    cases h
  | some row =>
    rw [hrow] at h
    dsimp only at h
    split_ifs at h
    rw [Except.ok.inj h]

private theorem issue_eq_ok {s' : Issuing} {caller : Caller} {c : Chance} {request : IssueRequest}
    (h : issue lib s caller c request = .ok (leaf, s')) :
    ∃ node, s.nodes.get request.nodeId = some node ∧ leaf.commonName = nodeCn (hostOf node.address) ∧
      s'.nodes = s.nodes := by
  cases request with
  | renewNodeCert nodeId =>
    obtain ⟨_, -, h⟩ := bind_eq_ok.mp h
    obtain ⟨node, hnode, h⟩ := bind_eq_ok.mp h
    obtain ⟨_, -, h⟩ := bind_eq_ok.mp h
    obtain ⟨host, hhost, h⟩ := bind_eq_ok.mp h
    obtain ⟨_, hleaf, h⟩ := bind_eq_ok.mp h
    cases h
    refine ⟨node, get_of_approvedNode hnode, ?_, rfl⟩
    rw [commonName_signNodeCert (ok_of_orMessage hleaf), host_of_nodeHost hhost]
  | signNodeCsr nodeId csrPem =>
    obtain ⟨_, -, h⟩ := bind_eq_ok.mp h
    obtain ⟨node, hnode, h⟩ := bind_eq_ok.mp h
    obtain ⟨-, h⟩ := guard_eq_ok.mp h
    obtain ⟨_, -, h⟩ := bind_eq_ok.mp h
    obtain ⟨host, hhost, h⟩ := bind_eq_ok.mp h
    obtain ⟨leaf', hleaf, h⟩ := bind_eq_ok.mp h
    refine ⟨node, get_of_approvedNode hnode, ?_⟩
    obtain ⟨csr, params, -, -, hparams, rfl⟩ := signCsr_eq_ok (ok_of_orMessage hleaf)
    rw [← host_of_nodeHost hhost, ← commonName_nodeCertParams hparams]
    cases hdb : c.dbError with
    | some e => simp [hdb, throw, throwThe, MonadExceptOf.throw, bind, Except.bind] at h
    | none =>
      rw [hdb] at h
      cases h
      exact ⟨rfl, rfl⟩

private theorem identityKind_nodeCn (host : String) : identityKind (nodeCn host) = .node := by
  have hprefix : startsWith (nodeCn host) cnNodePrefix = true := by
    simp [startsWith, nodeCn, cnNodePrefix, String.toList_append]
  rw [identityKind, if_pos hprefix]

def Caller.presentedCn : Caller → Option String
  | .web _ _ => none
  | .certificate cn _ => cn

def RecordedFor (inv : Inventory) (caller : Caller) (nodeId : String) : Prop :=
  match caller with
  | .web _ _ => False
  | .certificate _ serial => ∃ row ∈ inv.rows.get serial, row.nodeId = nodeId

/-! ### Registrations and certificates over time -/

/-- `upsert_node`. The approval of a node that is stored already stays. -/
def upsertNode (nodes : Table NodeRow.id) (node : NodeRow) : Table NodeRow.id :=
  match nodes.get node.id with
  | none => nodes.put node
  | some old => nodes.put { node with approvalStatus := old.approvalStatus }

def registerNode (requireManualApproval : Bool) (s : Issuing) (caller : Caller) (nodeId address : String) :
    Except Status Issuing := do
  requirePeer caller [cnNodePrefix]
  let approvalStatus := match s.nodes.get nodeId with
    | some node => node.approvalStatus
    | none => if requireManualApproval then "pending" else "approved"
  return { s with nodes := upsertNode s.nodes ⟨nodeId, address, approvalStatus⟩ }

inductive NodeAct where
  | register (requireManualApproval : Bool) (caller : Caller) (nodeId address : String)
  /-- The event of a registration on another controller. -/
  | applyRegister (caller : Caller) (node : NodeRow)
  | setNodeApproval (nodeId status : String)
  | deleteNode (nodeId : String)
  | issue (lib : Rcgen) (caller : Caller) (c : Chance) (request : IssueRequest)

/-- The rows of a controller, the CN with which each node was registered last, and what was issued to whom. -/
structure Registry where
  issuing : Issuing
  registeredBy : String → Option String
  issued : List (Caller × Leaf)

namespace Registry

/-- The rows that are there are taken as written by the nodes at their addresses. -/
def start (s : Issuing) : Registry :=
  ⟨s, fun nodeId => (s.nodes.get nodeId).map fun node => nodeCn (hostOf node.address), []⟩

def registered (g : Registry) (issuing : Issuing) (caller : Caller) (nodeId : String) : Registry :=
  { g with issuing, registeredBy := fun k => if nodeId = k then caller.presentedCn else g.registeredBy k }

def step (g : Registry) : NodeAct → Registry
  | .register manual caller nodeId address =>
    match registerNode manual g.issuing caller nodeId address with
    | .error _ => g
    | .ok s => g.registered s caller nodeId
  | .applyRegister caller node =>
    g.registered { g.issuing with nodes := upsertNode g.issuing.nodes node } caller node.id
  | .setNodeApproval nodeId status =>
    { g with issuing.nodes :=
        g.issuing.nodes.update (·.id = nodeId) (fun node => { node with approvalStatus := status }) fun _ => rfl }
  | .deleteNode nodeId => { g with issuing.nodes := g.issuing.nodes.erase nodeId }
  | .issue lib caller c request =>
    match issue lib g.issuing caller c request with
    | .error _ => g
    | .ok (leaf, s) => { g with issuing := s, issued := (caller, leaf) :: g.issued }

/-- What the handlers do not check: a node registers the address of its own CN, and asks for a certificate of a node
that was last registered with this CN. -/
def Own (g : Registry) : NodeAct → Prop
  | .register _ caller _ address => caller.presentedCn = some (nodeCn (hostOf address))
  | .applyRegister caller node => caller.presentedCn = some (nodeCn (hostOf node.address))
  | .setNodeApproval _ _ | .deleteNode _ => True
  | .issue _ caller _ request => ∃ cn, caller.presentedCn = some cn ∧ g.registeredBy request.nodeId = some cn

/-- A certificate with the second CN was issued to a holder of one with the first. -/
def Yields (g : Registry) (cn cn' : String) : Prop :=
  ∃ p ∈ g.issued, p.1.presentedCn = some cn ∧ p.2.commonName = cn'

/-- Every certificate is one of a node and has the CN that the caller presented; and over any number of requests, each
with a certificate that an earlier one gave, a certificate leads to no other CN than its own. -/
structure OnlyOwn (g : Registry) : Prop where
  own : ∀ p ∈ g.issued, identityKind p.2.commonName = .node ∧ p.1.presentedCn = some p.2.commonName
  closed : ∀ cn cn', Relation.ReflTransGen g.Yields cn cn' → cn' = cn

structure Inv (g : Registry) : Prop where
  rows : ∀ k node, g.issuing.nodes.get k = some node → ∀ cn, g.registeredBy k = some cn →
    nodeCn (hostOf node.address) = cn
  own : ∀ p ∈ g.issued, identityKind p.2.commonName = .node ∧ p.1.presentedCn = some p.2.commonName

private theorem Inv.start (s : Issuing) : Inv (start s) where
  rows := by
    intro k node hnode cn hcn
    simp only [Registry.start] at hcn hnode
    rw [hnode] at hcn
    exact Option.some.inj hcn
  own := fun _ hp => absurd hp List.not_mem_nil

private theorem Inv.onlyOwn {g : Registry} (h : Inv g) : OnlyOwn g where
  own := h.own
  closed := by
    intro cn cn' hyields
    induction hyields with
    | refl => rfl
    | tail _ hlast ih =>
      obtain ⟨p, hp, hcaller, hleaf⟩ := hlast
      have hown := Option.some.inj (hcaller.symm.trans (h.own p hp).2)
      rw [← hleaf, ← hown, ih]

private theorem get_upsertNode {nodes : Table NodeRow.id} {found : NodeRow} {k : String}
    (h : (upsertNode nodes node).get k = some found) :
    node.id = k ∧ found.address = node.address ∨ node.id ≠ k ∧ nodes.get k = some found := by
  unfold upsertNode at h
  split at h <;> rw [Table.get_put] at h <;> split_ifs at h with hid
  · exact .inl ⟨hid, by rw [Option.some.inj h]⟩
  · exact .inr ⟨hid, h⟩
  · exact .inl ⟨hid, by rw [← Option.some.inj h]⟩
  · exact .inr ⟨hid, h⟩

private theorem Inv.registered {g : Registry} (h : Inv g) {caller : Caller}
    (hown : caller.presentedCn = some (nodeCn (hostOf node.address))) :
    Inv (g.registered { g.issuing with nodes := upsertNode g.issuing.nodes node } caller node.id) where
  rows := by
    intro k found hfound cn hcn
    obtain ⟨rfl, haddress⟩ | ⟨hne, hfound⟩ := get_upsertNode hfound
    · simp only [Registry.registered, if_true, hown] at hcn
      rw [haddress]
      exact Option.some.inj hcn
    · simp only [Registry.registered, if_neg hne] at hcn
      exact h.rows k found hfound cn hcn
  own := h.own

private theorem Inv.issue {g : Registry} (h : Inv g) {lib : Rcgen} {caller : Caller} {c : Chance}
    {request : IssueRequest} (hissue : issue lib g.issuing caller c request = .ok (leaf, s)) {cn : String}
    (hcaller : caller.presentedCn = some cn) (hby : g.registeredBy request.nodeId = some cn) :
    Inv { g with issuing := s, issued := (caller, leaf) :: g.issued } where
  rows := by
    obtain ⟨-, -, -, hnodes⟩ := issue_eq_ok hissue
    rw [hnodes]
    exact h.rows
  own := by
    obtain ⟨node, hnode, hcn, -⟩ := issue_eq_ok hissue
    refine List.forall_mem_cons.mpr ⟨⟨?_, ?_⟩, h.own⟩
    · rw [hcn]
      exact identityKind_nodeCn _
    · rw [hcn, h.rows _ node hnode cn hby]
      exact hcaller

private theorem Inv.step {g : Registry} (h : Inv g) {act : NodeAct} (hown : g.Own act) : Inv (g.step act) := by
  cases act with
  | register manual caller nodeId address =>
    unfold Registry.step
    dsimp only
    cases hs : registerNode manual g.issuing caller nodeId address with
    | error e => exact h
    | ok s =>
      obtain ⟨_, -, hs⟩ := bind_eq_ok.mp hs
      cases hs
      exact @Inv.registered ⟨nodeId, address, _⟩ g h caller hown
  | applyRegister caller node => exact h.registered hown
  | setNodeApproval nodeId status =>
    refine ⟨fun k node hnode cn hcn => ?_, h.own⟩
    simp only [Registry.step, Table.get_update, Option.map_eq_some_iff] at hnode
    obtain ⟨old, hold, rfl⟩ := hnode
    rw [← h.rows k old hold cn hcn]
    split <;> rfl
  | deleteNode nodeId =>
    refine ⟨fun k node hnode cn hcn => ?_, h.own⟩
    simp only [Registry.step, Table.get_erase] at hnode
    split_ifs at hnode
    exact h.rows k node hnode cn hcn
  | issue lib caller c request =>
    unfold Registry.step
    dsimp only
    cases hissue : Pki.issue lib g.issuing caller c request with
    | error e => exact h
    | ok r =>
      obtain ⟨cn, hcaller, hby⟩ := hown
      exact h.issue hissue hcaller hby

end Registry

def twoNodes : Issuing :=
  ⟨(Table.empty.put ⟨"node-a", "10.0.0.1:9091", "approved"⟩).put ⟨"node-b", "10.0.0.2:9091", "approved"⟩,
    ⟨Table.empty.put ⟨7, "kcore-node-10.0.0.1", .node, "node-a", 2000, false, none⟩, []⟩, ⟨"sub-ca", "key"⟩⟩

def nodeA : Caller := .certificate (some "kcore-node-10.0.0.1") 7

def plainRcgen : Rcgen := ⟨fun _ => .ok ⟨none, [], 5⟩, fun _ => .ok (), fun _ => .ok (), fun _ => .ok (), .ok 9, .ok ()⟩

/-- Node A renews its certificate, node B moves to another name with the certificate for it, and both ask again. -/
def ownActs : List NodeAct :=
  [.issue plainRcgen nodeA ⟨8, 3000, none⟩ (.renewNodeCert "node-a"),
    .register false (.certificate (some "kcore-node-b.lan") 12) "node-b" "b.lan:9091",
    .issue plainRcgen (.certificate (some "kcore-node-b.lan") 12) ⟨13, 3000, none⟩ (.signNodeCsr "node-b" "csr"),
    .register false nodeA "node-a" "10.0.0.1:9191",
    .issue plainRcgen (.certificate (some "kcore-node-10.0.0.1") 8) ⟨9, 4000, none⟩ (.renewNodeCert "node-a")]

end Kcore.Pki
