import Kcore.Lib.Pool
import Kcore.Lib.Run
import Kcore.Pki.Inventory

/-!
# Revocation on a controller

What a controller does about revoked certificates, as programs whose calls are single operations on the database, on
the set of revoked serials in memory, and on the CRL in memory. Requests and the passes of the reconciler run side by
side. A call to the database may fail, and then changes nothing.
-/

namespace Kcore.Pki

open Machine Process

/-! ### The check of a peer -/

inductive FailMode where
  | softFail
  | hardFail

inductive Decision where
  | allow
  | revoked (serial : Nat)
  | stale (ageSecs : Option Int)
  | allowStale (ageSecs : Option Int)
  deriving DecidableEq

def Decision.isAllowed : Decision → Bool
  | .allow | .allowStale _ => true
  | _ => false

structure Snapshot where
  serials : List Nat
  refreshedAt : Option Int

structure Policy where
  failMode : FailMode
  maxStaleness : Int

/-- `decide`. A set that was never loaded has no age and is too old. -/
def decideRevoked (policy : Policy) (set : Snapshot) (serial : Nat) (now : Int) : Decision :=
  if serial ∈ set.serials then .revoked serial
  else
    let age := set.refreshedAt.map (now - ·)
    if age.all (policy.maxStaleness < ·) then
      match policy.failMode with
      | .hardFail => .stale age
      | .softFail => .allowStale age
    else .allow

theorem decideRevoked_of_mem {policy : Policy} {set : Snapshot} {serial : Nat} (h : serial ∈ set.serials) (now : Int) :
    decideRevoked policy set serial now = .revoked serial := if_pos h

/-! ### The state and its operations -/

structure SignedCrl where
  crlNumber : Nat
  thisUpdate : Int
  nextUpdate : Int
  serials : List Nat
  issuer : String
  deriving DecidableEq

/-- `crlState` is the row of the table with its issuer's fingerprint, `cache` the CRL in memory and `seen` the serials
presented since the last tick. `stored` and `served` have all CRLs that were put into the table and into the cache. -/
structure World where
  inv : Inventory
  memory : Snapshot
  crlState : Option SignedCrl
  cache : Option SignedCrl
  subCa : Option String
  seen : List Nat
  stored : List SignedCrl
  served : List SignedCrl

/-- A call that stores a CRL names the one that its number was counted from. -/
inductive Call where
  | findRevocable (subjectCn nodeId : String)
  | getIssued (serial : Nat)
  | markRevoked (serial : Nat)
  | insertRevoked (serial : Nat)
  | listSuperseded (seenBefore now : Int)
  | revokedSerialSet
  | storeSerials (serials : List Nat)
  | takeSeen
  | markSeen (serials : List Nat) (now : Int)
  | subCa
  | now
  | listRevoked
  | getCrlState
  | cacheGet
  | sign
  | putCrlState (base : Option SignedCrl) (crl : SignedCrl)
  | cacheSet (crl : SignedCrl)

def Call.Resp : Call → Type
  | .findRevocable _ _ => Except String (List Nat)
  | .getIssued _ => Except String (Option CertRow)
  | .markRevoked _ => Except String Unit
  | .insertRevoked _ => Unit
  | .listSuperseded _ _ => Except String (List CertRow)
  | .revokedSerialSet => Except String (List Nat)
  | .storeSerials _ => Unit
  | .takeSeen => List Nat
  | .markSeen _ _ => Except String Unit
  | .subCa => Option String
  | .now => Int
  | .listRevoked => Except String (List Nat)
  | .getCrlState => Except String (Option SignedCrl)
  | .cacheGet => Option SignedCrl
  | .sign => Except String Int
  | .putCrlState _ _ => Except String Unit
  | .cacheSet _ => Unit

structure Choice where
  fails : Option String
  time : Int

def Choice.orError {α : Type} (c : Choice) (a : α) : Except String α :=
  match c.fails with
  | some e => .error e
  | none => .ok a

def Choice.orKeep (c : Choice) (w w' : World) : World := if c.fails = none then w' else w

def act : (e : Call) → Choice → World → e.Resp × World
  | .findRevocable subjectCn nodeId, c, w => (c.orError (w.inv.findRevocable subjectCn nodeId), w)
  | .getIssued serial, c, w => (c.orError (w.inv.rows.get serial), w)
  | .markRevoked serial, c, w => (c.orError (), c.orKeep w { w with inv := w.inv.markRevoked serial })
  | .insertRevoked serial, _, w =>
    ((), { w with memory := { w.memory with serials := serial :: w.memory.serials } })
  | .listSuperseded seenBefore now, c, w => (c.orError (w.inv.listSuperseded .node seenBefore now), w)
  | .revokedSerialSet, c, w => (c.orError w.inv.revoked, w)
  | .storeSerials serials, c, w => ((), { w with memory := ⟨serials, some c.time⟩ })
  | .takeSeen, _, w => (w.seen, { w with seen := [] })
  | .markSeen serials now, c, w => (c.orError (), c.orKeep w { w with inv := w.inv.markSeen serials now })
  | .subCa, _, w => (w.subCa, w)
  | .now, c, w => (c.time, w)
  | .listRevoked, c, w => (c.orError w.inv.revoked, w)
  | .getCrlState, c, w => (c.orError w.crlState, w)
  | .cacheGet, _, w => (w.cache, w)
  | .sign, c, w => (c.orError c.time, w)
  | .putCrlState _ crl, c, w =>
    (c.orError (), c.orKeep w { w with crlState := some crl, stored := w.stored ++ [crl] })
  | .cacheSet crl, _, w => ((), { w with cache := some crl, served := w.served ++ [crl] })

/-! ### The programs -/

abbrev Program := ExceptT String (Process Call Call.Resp)

abbrev call (e : Call) : Process Call Call.Resp e.Resp := Process.ask e

def attempt {α : Type} (p : Process Call Call.Resp (Except String α)) : Program α := ExceptT.mk p

def always {α : Type} (p : Process Call Call.Resp α) : Program α := ExceptT.lift p

/-- `PkiConfig` and `revoke_superseded_after_hours`; durations are in seconds. -/
structure PkiConfig where
  crlValidity : Int
  crlRefreshBefore : Int
  revokeSupersededAfter : Int

def revokeCertificateBySerial (serial : Nat) : Program (Option CertRow) := do
  attempt (call (.markRevoked serial))
  attempt (call (.getIssued serial))

def revokeAll : List Nat → Program (List Nat)
  | [] => pure []
  | serial :: rest => do
    match ← revokeCertificateBySerial serial with
    | none => revokeAll rest
    | some row => do
      always (call (.insertRevoked row.serial))
      let revoked ← revokeAll rest
      return row.serial :: revoked

def signAndStore (cfg : PkiConfig) (issuer : String) (revoked : List Nat) (current : Option SignedCrl) :
    Program (Option SignedCrl) := do
  let thisUpdate ← attempt (call .sign)
  let crl : SignedCrl :=
    ⟨(current.map (·.crlNumber + 1)).getD 1, thisUpdate, thisUpdate + cfg.crlValidity, revoked, issuer⟩
  attempt (call (.putCrlState current crl))
  always (call (.cacheSet crl))
  return some crl

def needsRegen (cfg : PkiConfig) (issuer : String) (force : Bool) (revoked : List Nat)
    (persisted current : Option SignedCrl) (now : Int) : Bool :=
  force || persisted.all (fun p => p.issuer ≠ issuer) ||
    match current with
    | none => true
    | some crl => crl.serials.length ≠ revoked.length || crl.nextUpdate - now ≤ cfg.crlRefreshBefore

def ensureCurrentWith (cfg : PkiConfig) (issuer : String) (force : Bool) : Program (Option SignedCrl) := do
  let revoked ← attempt (call .listRevoked)
  let persisted ← attempt (call .getCrlState)
  let cached ← always (call .cacheGet)
  let now ← always (call .now)
  if needsRegen cfg issuer force revoked persisted (cached.or persisted) now then
    signAndStore cfg issuer revoked (cached.or persisted)
  else return cached.or persisted

def ensureCurrent (cfg : PkiConfig) (force : Bool) : Program (Option SignedCrl) := do
  match ← always (call .subCa) with
  | none => pure none
  | some issuer => ensureCurrentWith cfg issuer force

inductive Target where
  | serial (serial : Nat)
  | identity (subjectCn nodeId : String)

def resolveRevocationTargets : Target → Program (List Nat)
  | .serial serial => do
    let found ← attempt (call (.getIssued serial))
    return found.toList.map CertRow.serial
  | .identity subjectCn nodeId =>
    if trim subjectCn = "" ∧ trim nodeId = "" then throw "one of serial_hex, subject_cn or node_id is required"
    else attempt (call (.findRevocable (trim subjectCn) (trim nodeId)))

def isValidReasonCode (code : Int) : Bool := (0 ≤ code && code ≤ 6) || (8 ≤ code && code ≤ 10)

def rollCrl (cfg : PkiConfig) (revoked : List Nat) : Program (List Nat) := do
  let _ ← always (ensureCurrent cfg true).run
  return revoked

def revokeCertificate (cfg : PkiConfig) (reason : Int) (target : Target) : Program (List Nat) :=
  if !isValidReasonCode reason then
    throw ("revocation reason " ++ toString reason ++ " is not an RFC 5280 reason code")
  else do
    let serials ← resolveRevocationTargets target
    if serials = [] then throw "no matching certificate found in the inventory"
    else do
      let revoked ← revokeAll serials
      rollCrl cfg revoked

def revokeNodeCertificates (cfg : PkiConfig) (nodeId : String) : Program (List Nat) := do
  let serials ← attempt (call (.findRevocable "" nodeId))
  let revoked ← revokeAll serials
  rollCrl cfg revoked

/-- The loop of `revoke_superseded_certificates`: an error is logged, and the next row is tried. -/
def revokeEach : List CertRow → Process Call Call.Resp (List Nat)
  | [] => pure []
  | row :: rest => do
    match ← (revokeCertificateBySerial row.serial).run with
    | .ok (some _) => do
      call (.insertRevoked row.serial)
      let revoked ← revokeEach rest
      return row.serial :: revoked
    | _ => revokeEach rest

/-- `record_seen_certificates` and `revoke_superseded_certificates`. -/
def revokeSuperseded (cfg : PkiConfig) : Process Call Call.Resp (List Nat) := do
  let now : Int ← call .now
  let seen ← call .takeSeen
  let _ ← call (.markSeen seen now)
  if cfg.revokeSupersededAfter ≤ 0 then return []
  else
    match ← call (.listSuperseded (now - cfg.revokeSupersededAfter) now) with
    | .error _ => return []
    | .ok rows => revokeEach rows

def refresh : Program Unit := do
  let serials ← attempt (call .revokedSerialSet)
  always (call (.storeSerials serials))

/-- What runs on the controller. `ensureCurrent` is the periodic pass and what `GetCrl` does. -/
inductive Request where
  | revokeCertificate (reason : Int) (target : Target)
  | revokeNodeCertificates (nodeId : String)
  | revokeSuperseded
  | refresh
  | ensureCurrent

structure Outcome where
  revoked : List Nat
  crl : Option SignedCrl

def Request.program (cfg : PkiConfig) : Request → Process Call Call.Resp (Except String Outcome)
  | .revokeCertificate reason target => ExceptT.run do
    let revoked ← Pki.revokeCertificate cfg reason target
    return ⟨revoked, none⟩
  | .revokeNodeCertificates nodeId => ExceptT.run do
    let revoked ← Pki.revokeNodeCertificates cfg nodeId
    return ⟨revoked, none⟩
  | .revokeSuperseded => ExceptT.run do
    let revoked ← always (Pki.revokeSuperseded cfg)
    return ⟨revoked, none⟩
  | .refresh => ExceptT.run do
    Pki.refresh
    return ⟨[], none⟩
  | .ensureCurrent => ExceptT.run do
    let crl ← Pki.ensureCurrent cfg false
    return ⟨[], crl⟩

/-! ### Runs -/

/-- Each task has the serials that had been revoked with success when it started. -/
abbrev System := Pool (List Nat) Call Call.Resp (Except String Outcome) World

def System.confirmed (s : System) : List Nat :=
  s.tasks.flatMap fun t => match t.2 with
    | .ret (.ok out) => out.revoked
    | _ => []

/-- `restart` stops every task, and the cache is loaded from the database. The first refresh may fail. -/
inductive Action where
  | start (request : Request)
  | call (task : Nat) (c : Choice)
  | recordSigned (row : CertRow)
  | present (serial : Nat)
  | rotateSubCa (certPem : String)
  | restart (c : Choice)

def System.step (cfg : PkiConfig) (s : System) : Action → System
  | .start request => Pool.start s s.confirmed (request.program cfg)
  | .call task c => Pool.advance act s task c
  | .recordSigned row => { s with state := { s.state with inv := s.state.inv.recordSignedChain row } }
  | .present serial => { s with state := { s.state with seen := serial :: s.state.seen } }
  | .rotateSubCa certPem => { s with state := { s.state with subCa := some certPem } }
  | .restart c =>
    let memory : Snapshot := if c.fails = none then ⟨s.state.inv.revoked, some c.time⟩ else ⟨[], none⟩
    ⟨{ s.state with cache := s.state.crlState, memory := memory }, s.tasks.filter fun t => t.2.returned⟩

end Kcore.Pki
