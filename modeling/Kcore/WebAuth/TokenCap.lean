import Kcore.Json
import Kcore.Lib.Checks
import Kcore.Lib.Run

/-!
# The cap of an API token

`CreateApiToken` may cap a token below the role of its owner. The cap is a number in the request, a text in the table
`auth_tokens` and in the replication event, and an optional role in the identity of a request, in which no role means no
cap. A request that bears the token is authorised by the role of the owner on the controller that it is sent to, lowered
to the cap.

The rows of a token keep its owner and its cap wherever it is replicated (`carries_step`); what is lost is lost before:
`role_from_proto` takes every number that is no role for no cap (`token_capped_iff`).
-/

namespace Kcore.WebAuth.TokenCap

open Machine Checks

/-! ### Roles -/

inductive OperatorRole where
  | readOnly
  | backupOperator
  | vmAdmin
  | clusterAdmin
  deriving DecidableEq

namespace OperatorRole

def rank : OperatorRole → Nat
  | readOnly => 1
  | backupOperator => 2
  | vmAdmin => 3
  | clusterAdmin => 4

def satisfies (role required : OperatorRole) : Bool := required.rank ≤ role.rank

def min (a b : OperatorRole) : OperatorRole := if a.rank ≤ b.rank then a else b

def asDbStr : OperatorRole → String
  | readOnly => "read-only"
  | backupOperator => "backup-operator"
  | vmAdmin => "vm-admin"
  | clusterAdmin => "cluster-admin"

def fromDbStr (s : String) : Option OperatorRole :=
  if s = "read-only" then some readOnly
  else if s = "backup-operator" then some backupOperator
  else if s = "vm-admin" ∨ s = "admin" then some vmAdmin
  else if s = "cluster-admin" then some clusterAdmin
  else none

def debug : OperatorRole → String
  | readOnly => "ReadOnly"
  | backupOperator => "BackupOperator"
  | vmAdmin => "VmAdmin"
  | clusterAdmin => "ClusterAdmin"

def toProto : OperatorRole → Int
  | readOnly => 1
  | vmAdmin => 2
  | clusterAdmin => 3
  | backupOperator => 4

/-- `role_from_proto`. A number that is not in the enumeration is treated like `UNSPECIFIED`. -/
def fromProto (kind : Int) : Option OperatorRole :=
  if kind = 1 then some readOnly
  else if kind = 2 then some vmAdmin
  else if kind = 3 then some clusterAdmin
  else if kind = 4 then some backupOperator
  else none

end OperatorRole

/-! ### Tokens and identities -/

inductive WebTokenKind where
  | pending
  | session
  | api
  deriving DecidableEq

def WebTokenKind.fromDbStr (s : String) : Option WebTokenKind :=
  if s = "pending" then some pending else if s = "session" then some session else if s = "api" then some api else none

structure AuthTokenRow where
  id : String
  tokenHash : String
  operatorName : String
  kind : String
  name : String
  maxRole : String
  createdAt : Int
  expiresAt : Int
  lastUsedAt : Int
  createdFrom : String

structure WebIdentity where
  operator : String
  tokenId : String
  kind : WebTokenKind
  maxRole : Option OperatorRole
  expiresAt : Int
  deriving DecidableEq

/-- What a controller has: the table `auth_tokens`, the roles granted to each operator, whether an operator with the
role of a cluster admin has a certificate, and its configuration. -/
structure Site where
  tokens : List AuthTokenRow
  roles : String → List String
  certifiedClusterAdmin : Bool
  bootstrapKctl : Bool
  idleSecs : Int

/-- `insert_auth_token`: `ON CONFLICT(id) DO NOTHING`, and hashes are unique. -/
def insertAuthToken (tokens : List AuthTokenRow) (row : AuthTokenRow) : Except String (List AuthTokenRow) :=
  if tokens.any (·.id = row.id) then .ok tokens
  else if tokens.any (·.tokenHash = row.tokenHash) then .error "UNIQUE constraint failed: auth_tokens.token_hash"
  else .ok (tokens ++ [row])

def tokenBody (row : AuthTokenRow) : Value :=
  .object [("id", .string row.id), ("tokenHash", .string row.tokenHash), ("operator", .string row.operatorName),
    ("name", .string row.name), ("maxRole", .string row.maxRole), ("createdAt", .number (.int row.createdAt)),
    ("expiresAt", .number (.int row.expiresAt)), ("createdFrom", .string row.createdFrom)]

def applyReplicatedToken (tokens : List AuthTokenRow) (body : Value) : Except String (List AuthTokenRow) :=
  let text := fun key => (body.str key).getD ""
  let row : AuthTokenRow := {
    id := text "id"
    tokenHash := text "tokenHash"
    operatorName := text "operator"
    kind := "api"
    name := text "name"
    maxRole := text "maxRole"
    createdAt := (body.i64 "createdAt").getD 0
    expiresAt := (body.i64 "expiresAt").getD 0
    lastUsedAt := 0
    createdFrom := text "createdFrom" }
  if row.id = "" ∨ row.tokenHash.utf8ByteSize ≠ 64 ∨ row.operatorName = "" then
    .error "token event needs id, a 64-character tokenHash, and operator"
  else insertAuthToken tokens row

/-! ### Authorisation -/

inductive GateDecision where
  | isPublic
  | identity (web : WebIdentity)
  | deny (message : String)
  deriving DecidableEq

def publicPaths : List String := ["/kcore.controller.Auth/Login"]

def secondFactorPaths : List String :=
  ["/kcore.controller.Auth/VerifySecondFactor", "/kcore.controller.Auth/BeginTotpEnrollment",
    "/kcore.controller.Auth/ConfirmTotpEnrollment"]

def pendingAllowed : List String := secondFactorPaths ++ ["/kcore.controller.Auth/Logout"]

/-- `TokenGate::check` for a request that bears a token with this hash. What it writes to the table is left out. -/
def Site.gate (site : Site) (path hash : String) (now : Int) : GateDecision :=
  if path ∈ publicPaths then .isPublic
  else match site.tokens.find? (·.tokenHash = hash) with
    | none => .deny "session ended; sign in again"
    | some row => match WebTokenKind.fromDbStr row.kind with
      | none => .deny "unknown token kind"
      | some kind =>
        if row.expiresAt ≤ now then .deny "session expired; sign in again"
        else if kind = .session ∧ site.idleSecs < now - row.lastUsedAt then .deny "session timed out; sign in again"
        else if kind = .pending ∧ path ∉ pendingAllowed then .deny "finish the second sign-in step first"
        else if kind = .api ∧ path ∈ secondFactorPaths then .deny "an API token cannot change TOTP"
        else .identity ⟨row.operatorName, row.id, kind, OperatorRole.fromDbStr row.maxRole, row.expiresAt⟩

inductive ManagementPeer where
  | legacyKctl
  | namedOperator (name : String)
  | peerController

def validateOperatorName (name : String) : Except String Unit :=
  if name = "" then .error "operator name cannot be empty"
  else if 64 < name.utf8ByteSize then .error "operator name must be at most 64 characters"
  else if name.toList.all fun c => c.isAlphanum || c == '_' || c == '-' then .ok ()
  else .error "operator name must be ASCII alphanumeric, '_' or '-'"

def WebIdentity.peerCn (web : WebIdentity) : String :=
  if web.kind = .pending then "web-pending:" ++ web.operator else "kctl:" ++ web.operator

def operatorPeer (cn : String) : Except String ManagementPeer :=
  if cn = "kctl" then .ok .legacyKctl
  else match stripPrefix cn "kctl:" with
    | none => .error ("unrecognized client identity '" ++ cn ++ "'")
    | some rest => do
      validateOperatorName rest
      return .namedOperator rest

def classifyManagementPeer (cn : String) : Except String ManagementPeer :=
  if startsWith cn "kcore-node-" then .error "node certificates cannot call this RPC"
  else if startsWith cn "kcore-controller-" then .ok .peerController
  else operatorPeer cn

def Site.effectiveOperatorRole (site : Site) : ManagementPeer → Except String OperatorRole
  | .peerController => .ok .clusterAdmin
  | .legacyKctl =>
    if !site.certifiedClusterAdmin || site.bootstrapKctl then .ok .clusterAdmin
    else .error "legacy CN=kctl client is disabled once a cluster-admin operator has a certificate"
  | .namedOperator name =>
    let parsed := (site.roles name).filterMap OperatorRole.fromDbStr
    if parsed = [] then .error ("operator '" ++ name ++ "' has no roles assigned")
    else .ok (parsed.foldl (fun role r => if role.rank < r.rank then r else role) .readOnly)

def WebIdentity.applyTokenCap (web : WebIdentity) (role : OperatorRole) : OperatorRole :=
  match web.maxRole with
  | some cap => role.min cap
  | none => role

def Site.controllerOperatorRole (site : Site) (web : WebIdentity) : Except String OperatorRole := do
  let peer ← classifyManagementPeer web.peerCn
  let role ← site.effectiveOperatorRole peer
  return web.applyTokenCap role

def WebIdentity.requireRole (web : WebIdentity) (effective required : OperatorRole) : Except String Unit :=
  check (effective.satisfies required)
    ("identity '" ++ web.peerCn ++ "' lacks required role " ++ required.debug ++ " (effective " ++
      effective.debug ++ ")")

def Site.requireControllerOperator (site : Site) (web : WebIdentity) (required : OperatorRole) :
    Except String Unit := do
  let effective ← site.controllerOperatorRole web
  web.requireRole effective required

def Site.requireAdminOperator (site : Site) (web : WebIdentity) (required : OperatorRole) : Except String Unit :=
  if startsWith web.peerCn "kcore-node-" then .error "node certificates cannot call controller admin RPCs"
  else if startsWith web.peerCn "kcore-controller-" then
    .error "controller peer certificates cannot call controller admin RPCs"
  else do
    let peer ← operatorPeer web.peerCn
    let role ← site.effectiveOperatorRole peer
    web.requireRole (web.applyTokenCap role) required

/-- A request that bears a token with this hash is authorised for the role. -/
def Site.Authorised (site : Site) (hash path : String) (now : Int) (required : OperatorRole) : Prop :=
  ∃ web, site.gate path hash now = .identity web ∧
    (site.requireControllerOperator web required = .ok () ∨ site.requireAdminOperator web required = .ok ())

/-! ### Creation -/

structure CreateApiTokenRequest where
  name : String
  expiresInDays : Int
  maxRole : Int

structure NewToken where
  id : String
  hash : String

/-- `create_api_token` with `issue`, for a request with an identity: the new row, and the table with it. -/
def Site.createApiToken (site : Site) (web : WebIdentity) (req : CreateApiTokenRequest) (new : NewToken)
    (createdFrom : String) (now : Int) : Except String (AuthTokenRow × List AuthTokenRow) := do
  check (web.kind = .session) "this RPC needs a signed-in session, not an API or pending token"
  let effective ← site.controllerOperatorRole web
  let name := trim req.name
  check (name ≠ "" ∧ name.toList.length ≤ 64) "name is required and must be at most 64 characters"
  let days := if req.expiresInDays = 0 then 90 else req.expiresInDays
  check (1 ≤ days ∧ days ≤ 365) "expires_in_days must be between 1 and 365"
  let maxRole := OperatorRole.fromProto req.maxRole
  check (maxRole.all effective.satisfies)
    ("max_role " ++ (maxRole.map OperatorRole.debug).getD "" ++ " is above your role " ++ effective.debug)
  let row : AuthTokenRow := {
    id := new.id
    tokenHash := new.hash
    operatorName := web.operator
    kind := "api"
    name := name
    maxRole := (maxRole.map OperatorRole.asDbStr).getD ""
    createdAt := now
    expiresAt := now + days * 86400
    lastUsedAt := 0
    createdFrom := createdFrom }
  let tokens ← insertAuthToken site.tokens row
  return (row, tokens)

/-! ### The cluster -/

abbrev Cluster := Nat → Site

/-- The creation of the token is replicated to a controller; a controller issues or learns of another token, deletes or
touches one, or gets other roles of operators. -/
inductive Action where
  | deliver (k : Nat)
  | insert (k : Nat) (row : AuthTokenRow)
  | delete (k : Nat) (id : String)
  | touch (k : Nat) (id : String) (now : Int)
  | setRoles (k : Nat) (roles : String → List String) (certified : Bool)

def orKeep (tokens : List AuthTokenRow) : Except String (List AuthTokenRow) → List AuthTokenRow
  | .ok tokens => tokens
  | .error _ => tokens

def tokensAfter (row : AuthTokenRow) (tokens : List AuthTokenRow) : Action → List AuthTokenRow
  | .deliver _ => orKeep tokens (applyReplicatedToken tokens (tokenBody row))
  | .insert _ other =>
    if other.id = row.id ∨ other.tokenHash = row.tokenHash then tokens else orKeep tokens (insertAuthToken tokens other)
  | .delete _ id => tokens.filter (·.id ≠ id)
  | .touch _ id now => tokens.map fun r => if r.id = id then { r with lastUsedAt := now } else r
  | .setRoles _ _ _ => tokens

def Action.site : Action → Nat
  | .deliver k | .insert k _ | .delete k _ | .touch k _ _ | .setRoles k _ _ => k

def step (row : AuthTokenRow) (c : Cluster) (act : Action) : Cluster := fun k =>
  if k = act.site then
    let site := { c k with tokens := tokensAfter row (c k).tokens act }
    match act with
    | .setRoles _ roles certified => { site with roles := roles, certifiedClusterAdmin := certified }
    | _ => site
  else c k

/-- Wherever it is sent, a request that bears the token is authorised for no role above the requested cap or above the
owner's role on that controller. -/
def Capped (row : AuthTokenRow) (maxRole : Int) (c : Cluster) : Prop :=
  ∀ k path now required, (c k).Authorised row.tokenHash path now required →
    (∃ cap : OperatorRole, cap.toProto = maxRole ∧ cap.satisfies required = true) ∧
      ∃ own, (c k).effectiveOperatorRole (.namedOperator row.operatorName) = .ok own ∧ own.satisfies required = true

def Unknown (new : NewToken) (c : Cluster) : Prop :=
  ∀ k, ∀ r ∈ (c k).tokens, r.id ≠ new.id ∧ r.tokenHash ≠ new.hash

def Cluster.withTokens (c : Cluster) (k : Nat) (tokens : List AuthTokenRow) : Cluster := fun j =>
  if j = k then { c k with tokens } else c j

/-! ### The rows of the token -/

def Carries (row : AuthTokenRow) (tokens : List AuthTokenRow) : Prop :=
  ∀ r ∈ tokens, r.tokenHash = row.tokenHash →
    r.operatorName = row.operatorName ∧ r.maxRole = row.maxRole ∧ r.kind = "api"

section

variable {row other : AuthTokenRow} {tokens tokens' : List AuthTokenRow}

theorem insertAuthToken_eq_ok (h : insertAuthToken tokens other = .ok tokens') :
    tokens' = tokens ∨ tokens' = tokens ++ [other] := by
  unfold insertAuthToken at h
  split at h
  · exact .inl (Except.ok.inj h).symm
  · split at h
    · cases h
    · exact .inr (Except.ok.inj h).symm

theorem Carries.insert (hc : Carries row tokens) (hother : other.tokenHash = row.tokenHash →
    other.operatorName = row.operatorName ∧ other.maxRole = row.maxRole ∧ other.kind = "api")
    (h : insertAuthToken tokens other = .ok tokens') : Carries row tokens' := by
  rcases insertAuthToken_eq_ok h with rfl | rfl
  · exact hc
  · intro r hr
    rcases List.mem_append.mp hr with hr | hr
    · exact hc r hr
    · rw [List.mem_singleton.mp hr]
      exact hother

theorem Carries.orKeep {x : Except String (List AuthTokenRow)} (hc : Carries row tokens)
    (h : ∀ tokens', x = .ok tokens' → Carries row tokens') : Carries row (orKeep tokens x) := by
  cases x with
  | ok tokens' => exact h tokens' rfl
  | error e => exact hc

theorem Carries.applyReplicatedToken (hc : Carries row tokens)
    (h : applyReplicatedToken tokens (tokenBody row) = .ok tokens') : Carries row tokens' := by
  have howner : (tokenBody row).str "operator" = some row.operatorName := rfl
  have hcap : (tokenBody row).str "maxRole" = some row.maxRole := rfl
  unfold TokenCap.applyReplicatedToken at h
  simp only [howner, hcap, Option.getD_some] at h
  split at h
  · cases h
  · refine hc.insert ?_ h
    exact fun _ => ⟨rfl, rfl, rfl⟩

theorem carries_tokensAfter (hc : Carries row tokens) (act : Action) : Carries row (tokensAfter row tokens act) := by
  cases act with
  | deliver k => exact hc.orKeep fun _ h => hc.applyReplicatedToken h
  | insert k other =>
    simp only [tokensAfter]
    split
    · exact hc
    · rename_i hother
      exact hc.orKeep fun _ h => hc.insert (fun heq => absurd (.inr heq) hother) h
  | delete k id => exact fun r hr => hc r (List.mem_filter.mp hr).1
  | touch k id now =>
    intro r hr
    obtain ⟨r', hr', rfl⟩ := List.mem_map.mp hr
    have := hc r' hr'
    split <;> exact this
  | setRoles => exact hc

theorem carries_step {c : Cluster} (hc : ∀ k, Carries row (c k).tokens) (act : Action) (k : Nat) :
    Carries row (step row c act k).tokens := by
  unfold step
  split
  · have := carries_tokensAfter (hc k) act
    cases act <;> exact this
  · exact hc k

end

/-! ### The role of a request -/

theorem OperatorRole.fromProto_toProto (cap : OperatorRole) : fromProto cap.toProto = some cap := by
  cases cap <;> decide

theorem OperatorRole.fromDbStr_asDbStr (cap : OperatorRole) : fromDbStr cap.asDbStr = some cap := by
  cases cap <;> decide

theorem OperatorRole.satisfies_min {own cap required : OperatorRole} :
    (own.min cap).satisfies required = true ↔ own.satisfies required = true ∧ cap.satisfies required = true := by
  unfold min satisfies
  simp only [decide_eq_true_eq]
  split <;> omega

theorem operatorPeer_eq_ok {op : String} {peer : ManagementPeer} (h : operatorPeer ("kctl:" ++ op) = .ok peer) :
    peer = .namedOperator op ∧ validateOperatorName op = .ok () := by
  have hne : "kctl:" ++ op ≠ "kctl" := by
    intro heq
    have := congrArg (fun s => s.toList.length) heq
    simp at this
  unfold operatorPeer at h
  rw [if_neg hne, stripPrefix_eq_some.mpr rfl] at h
  obtain ⟨⟨⟩, hvalid, h⟩ := bind_eq_ok.mp h
  cases h
  exact ⟨rfl, hvalid⟩

theorem startsWith_kctl (op : String) :
    startsWith ("kctl:" ++ op) "kcore-node-" = false ∧ startsWith ("kctl:" ++ op) "kcore-controller-" = false := by
  constructor <;> simp [startsWith, List.isPrefixOf]

section

variable {site : Site} {web : WebIdentity} {required : OperatorRole}

theorem role_of_required (hkind : web.kind ≠ .pending)
    (h : site.requireControllerOperator web required = .ok () ∨ site.requireAdminOperator web required = .ok ()) :
    ∃ own, site.effectiveOperatorRole (.namedOperator web.operator) = .ok own ∧
      (web.applyTokenCap own).satisfies required = true := by
  have hcn : web.peerCn = "kctl:" ++ web.operator := if_neg hkind
  obtain ⟨hnode, hcontroller⟩ := startsWith_kctl web.operator
  rcases h with h | h
  · obtain ⟨effective, heffective, h⟩ := bind_eq_ok.mp h
    obtain ⟨peer, hpeer, heffective⟩ := bind_eq_ok.mp heffective
    obtain ⟨own, hown, heffective⟩ := bind_eq_ok.mp heffective
    cases heffective
    simp only [hcn, classifyManagementPeer, hnode, hcontroller, Bool.false_eq_true, if_false] at hpeer
    rw [(operatorPeer_eq_ok hpeer).1] at hown
    exact ⟨own, hown, check_eq_ok.mp h⟩
  · simp only [Site.requireAdminOperator, hcn, hnode, hcontroller, Bool.false_eq_true, if_false] at h
    obtain ⟨peer, hpeer, h⟩ := bind_eq_ok.mp h
    obtain ⟨own, hown, h⟩ := bind_eq_ok.mp h
    rw [(operatorPeer_eq_ok hpeer).1] at hown
    exact ⟨own, hown, check_eq_ok.mp h⟩

end

theorem gate_eq_identity {site : Site} {path hash : String} {now : Int} {web : WebIdentity}
    (h : site.gate path hash now = .identity web) : ∃ r ∈ site.tokens, r.tokenHash = hash ∧
      web.operator = r.operatorName ∧ web.maxRole = OperatorRole.fromDbStr r.maxRole ∧
      WebTokenKind.fromDbStr r.kind = some web.kind := by
  unfold Site.gate at h
  split at h
  · cases h
  split at h
  · cases h
  rename_i row hfind
  split at h
  · cases h
  rename_i kind hkind
  split_ifs at h
  cases h
  exact ⟨row, List.mem_of_find?_eq_some hfind, by simpa using List.find?_some hfind, rfl, rfl, hkind⟩

theorem capped_of_carries {row : AuthTokenRow} {cap : OperatorRole} {c : Cluster} (hcap : row.maxRole = cap.asDbStr)
    (hc : ∀ k, Carries row (c k).tokens) : Capped row cap.toProto c := by
  rintro k path now required ⟨web, hgate, hrequired⟩
  obtain ⟨r, hr, hhash, hoperator, hmax, hkind⟩ := gate_eq_identity hgate
  obtain ⟨hrowner, hrcap, hrkind⟩ := hc k r hr hhash
  have hnot : web.kind ≠ .pending := by
    intro hpending
    rw [hrkind, hpending] at hkind
    cases hkind
  obtain ⟨own, hown, hsatisfies⟩ := role_of_required hnot hrequired
  rw [WebIdentity.applyTokenCap, hmax, hrcap, hcap, OperatorRole.fromDbStr_asDbStr] at hsatisfies
  obtain ⟨hsown, hscap⟩ := OperatorRole.satisfies_min.mp hsatisfies
  rw [hoperator, hrowner] at hown
  exact ⟨⟨cap, rfl, hscap⟩, own, hown, hsown⟩

/-! ### The new token -/

structure Created (site : Site) (web : WebIdentity) (maxRole : Int) (new : NewToken) (now : Int) (row : AuthTokenRow) :
    Prop where
  kind : web.kind = .session
  effective : ∃ effective, site.controllerOperatorRole web = .ok effective
  id : row.id = new.id
  hash : row.tokenHash = new.hash
  owner : row.operatorName = web.operator
  api : row.kind = "api"
  cap : row.maxRole = ((OperatorRole.fromProto maxRole).map OperatorRole.asDbStr).getD ""
  lives : now < row.expiresAt

section

variable {site : Site} {web : WebIdentity} {req : CreateApiTokenRequest} {new : NewToken} {createdFrom : String}
  {now : Int} {row : AuthTokenRow} {tokens : List AuthTokenRow}

theorem createApiToken_eq_ok (h : site.createApiToken web req new createdFrom now = .ok (row, tokens)) :
    Created site web req.maxRole new now row ∧ insertAuthToken site.tokens row = .ok tokens := by
  obtain ⟨⟨⟩, hkind, h⟩ := bind_eq_ok.mp h
  obtain ⟨effective, heffective, h⟩ := bind_eq_ok.mp h
  obtain ⟨⟨⟩, -, h⟩ := bind_eq_ok.mp h
  obtain ⟨⟨⟩, hdays, h⟩ := bind_eq_ok.mp h
  obtain ⟨⟨⟩, -, h⟩ := bind_eq_ok.mp h
  obtain ⟨tokens', hinsert, h⟩ := bind_eq_ok.mp h
  cases h
  have hlives := (of_decide_eq_true (check_eq_ok.mp hdays)).1
  refine ⟨⟨of_decide_eq_true (check_eq_ok.mp hkind), ⟨effective, heffective⟩, rfl, rfl, rfl, rfl, rfl, ?_⟩, hinsert⟩
  dsimp only
  omega

theorem tokens_of_unknown (hunknown : ∀ r ∈ site.tokens, r.id ≠ row.id ∧ r.tokenHash ≠ row.tokenHash)
    (h : insertAuthToken site.tokens row = .ok tokens) : tokens = site.tokens ++ [row] := by
  have hid : ¬site.tokens.any (·.id = row.id) = true := by
    simp only [List.any_eq_true, decide_eq_true_eq, not_exists, not_and]
    exact fun r hr => (hunknown r hr).1
  have hhash : ¬site.tokens.any (·.tokenHash = row.tokenHash) = true := by
    simp only [List.any_eq_true, decide_eq_true_eq, not_exists, not_and]
    exact fun r hr => (hunknown r hr).2
  rw [insertAuthToken, if_neg hid, if_neg hhash] at h
  exact (Except.ok.inj h).symm

theorem find_new (hunknown : ∀ r ∈ site.tokens, r.id ≠ row.id ∧ r.tokenHash ≠ row.tokenHash) :
    (site.tokens ++ [row]).find? (·.tokenHash = row.tokenHash) = some row := by
  have hnone : site.tokens.find? (·.tokenHash = row.tokenHash) = none :=
    List.find?_eq_none.mpr fun r hr => by simpa using (hunknown r hr).2
  rw [List.find?_append, hnone]
  simp

theorem authorised_of_created (hcreated : Created site web req.maxRole new now row)
    (hfind : tokens.find? (·.tokenHash = row.tokenHash) = some row) :
    Site.Authorised { site with tokens } row.tokenHash "" now .readOnly := by
  let identity : WebIdentity :=
    ⟨row.operatorName, row.id, .api, OperatorRole.fromDbStr row.maxRole, row.expiresAt⟩
  refine ⟨identity, ?_, .inl ?_⟩
  · have hlives : ¬row.expiresAt ≤ now := Int.not_le.mpr hcreated.lives
    have hkind : WebTokenKind.fromDbStr row.kind = some .api := by
      rw [hcreated.api]
      rfl
    simp only [Site.gate, hfind, hkind, hlives, if_false]
    rfl
  · obtain ⟨effective, heffective⟩ := hcreated.effective
    obtain ⟨peer, hpeer, heffective⟩ := bind_eq_ok.mp heffective
    obtain ⟨own, hown, -⟩ := bind_eq_ok.mp heffective
    have hcn : identity.peerCn = web.peerCn := by
      rw [WebIdentity.peerCn, WebIdentity.peerCn, hcreated.kind]
      exact congrArg ("kctl:" ++ ·) hcreated.owner
    refine bind_eq_ok.mpr ⟨identity.applyTokenCap own, ?_, ?_⟩
    · refine bind_eq_ok.mpr ⟨peer, hcn ▸ hpeer, bind_eq_ok.mpr ⟨own, ?_, rfl⟩⟩
      cases peer <;> exact hown
    · refine check_eq_ok.mpr ?_
      cases identity.applyTokenCap own <;> decide

end

/-- A token is held to its cap, however it is replicated and the roles change, exactly when the requested number is that
of a role. -/
theorem token_capped_iff {c : Cluster} {k : Nat} {web : WebIdentity} {req : CreateApiTokenRequest} {new : NewToken}
    {createdFrom : String} {now : Int} {row : AuthTokenRow} {tokens : List AuthTokenRow} (hunknown : Unknown new c)
    (h : (c k).createApiToken web req new createdFrom now = .ok (row, tokens)) :
    (∀ acts, Along (step row) (Capped row req.maxRole) (c.withTokens k tokens) acts) ↔
      ∃ cap : OperatorRole, cap.toProto = req.maxRole := by
  obtain ⟨hcreated, hinsert⟩ := createApiToken_eq_ok h
  have hnew : ∀ j, ∀ r ∈ (c j).tokens, r.id ≠ row.id ∧ r.tokenHash ≠ row.tokenHash := by
    intro j r hr
    rw [hcreated.id, hcreated.hash]
    exact hunknown j r hr
  obtain rfl := tokens_of_unknown (hnew k) hinsert
  constructor
  · intro hcapped
    have hfirst := hcapped []
    have hauthorised := authorised_of_created hcreated (find_new (hnew k))
    have hsite : c.withTokens k ((c k).tokens ++ [row]) k = { c k with tokens := (c k).tokens ++ [row] } := if_pos rfl
    obtain ⟨⟨cap, hcap, -⟩, -⟩ := hfirst k "" now .readOnly (hsite ▸ hauthorised)
    exact ⟨cap, hcap⟩
  · rintro ⟨cap, hcap⟩ acts
    have hrow : row.maxRole = cap.asDbStr := by
      rw [hcreated.cap, ← hcap, OperatorRole.fromProto_toProto]
      rfl
    have hstart : ∀ j, Carries row (c.withTokens k ((c k).tokens ++ [row]) j).tokens := by
      intro j r hr hhash
      -- only the new row has the hash
      have hr : r ∈ (c j).tokens ∨ r = row := by
        unfold Cluster.withTokens at hr
        split at hr
        · rename_i hj
          exact hj ▸ (List.mem_append.mp hr).imp id List.mem_singleton.mp
        · exact .inl hr
      rcases hr with hr | rfl
      · exact absurd hhash (hnew j r hr).2
      · exact ⟨rfl, rfl, hcreated.api⟩
    have hcarries : Along (step row) (fun c => ∀ j, Carries row (c j).tokens) _ acts :=
      along_of_each hstart (fun _ act hc _ => carries_step hc act)
        (each_of_mem (G := fun _ _ => True) fun _ _ _ => trivial)
    rw [← hcap]
    exact hcarries.mono fun _ hc => capped_of_carries hrow hc

/-! ### Tokens of a cluster admin -/

def alice : WebIdentity := ⟨"alice", "s1", .session, none, 10000⟩

def adminCluster : Cluster := fun _ => ⟨[], fun _ => ["cluster-admin"], true, false, 900⟩

def dayToken (maxRole : String) : AuthTokenRow := ⟨"t1", "h1", "alice", "api", "ci", maxRole, 1000, 87400, 0, ""⟩

theorem read_only_token_capped : Along (step (dayToken "read-only")) (Capped (dayToken "read-only") 1)
    (adminCluster.withTokens 0 [dayToken "read-only"]) [.deliver 1, .setRoles 1 (fun _ => ["read-only"]) true] := by
  have hunknown : Unknown ⟨"t1", "h1"⟩ adminCluster := fun _ _ h => nomatch h
  have hcreated : (adminCluster 0).createApiToken alice ⟨"ci", 1, 1⟩ ⟨"t1", "h1"⟩ "" 1000 =
      .ok (dayToken "read-only", [dayToken "read-only"]) := rfl
  exact (token_capped_iff hunknown hcreated).mpr ⟨.readOnly, rfl⟩ _

/-- The number 99 is no role: the request succeeds, and its token has every role of its owner. -/
theorem undefined_cap_is_no_cap :
    (adminCluster 0).createApiToken alice ⟨"ci", 1, 99⟩ ⟨"t1", "h1"⟩ "" 1000 = .ok (dayToken "", [dayToken ""]) ∧
      ¬Capped (dayToken "") 99 (adminCluster.withTokens 0 [dayToken ""]) := by
  refine ⟨rfl, fun h => ?_⟩
  have hadmin : (adminCluster.withTokens 0 [dayToken ""] 0).Authorised "h1" "" 1000 .clusterAdmin :=
    ⟨⟨"alice", "t1", .api, none, 87400⟩, by decide, .inl rfl⟩
  obtain ⟨⟨cap, hcap, -⟩, -⟩ := h 0 "" 1000 .clusterAdmin hadmin
  cases cap <;> cases hcap

end Kcore.WebAuth.TokenCap
