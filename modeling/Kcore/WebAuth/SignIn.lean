import Kcore.Lib.Run
import Kcore.WebAuth.Credentials
import Mathlib.Logic.Function.Basic

/-!
# Sign-ins and password changes

A sign-in is two requests: `Login` checks the password and leaves a pending token, and the second factor turns the
pending token into a session. A request is the list of its database calls, made one at a time between those of other
requests; the checks of codes and passwords, which are made at its start, may succeed or not. Each token remembers the
hash that its `Login` has checked. When a password change succeeds on a controller, or its event arrives there, the
hashes that the controller had before are retired: no session may rest on one of them, except the session that made
the change.
-/

namespace Kcore.WebAuth.SignIn

open Machine

inductive Kind where
  | pending
  | session
  deriving DecidableEq

/-- A row of `auth_tokens`, with the hash that the `Login` behind it has checked. -/
structure Token where
  id : Nat
  kind : Kind
  checked : String
  deriving DecidableEq

/-- The event `operator_credentials.set`; `changes` tells those of password changes. -/
structure Event where
  controller : Nat
  record : Credentials
  revokeSessions : Bool
  changes : Bool
  deriving DecidableEq

/-- The database calls of the requests, and the answer of a password change. -/
inductive Op where
  | upsert (record : Credentials)
  | deleteOperatorTokens (kind : Kind) (except : Option Nat)
  | deleteAuthToken (id : Nat)
  | insertAuthToken (kind : Kind) (checked : String)
  | replicate (record : Credentials) (revokeSessions changes : Bool)
  | succeed (record : Credentials) (own : Option Nat)

/-- What a controller has of the operator. `history` has all hashes that were ever stored, `retired` those that a
password change has replaced and `own` the session that made the last change. -/
structure Site where
  stored : Option Credentials
  tokens : List Token
  next : Nat
  history : List String
  retired : List String
  own : Option Nat

namespace Site

def creds (x : Site) : Credentials := x.stored.getD .empty

def hash (x : Site) : String := x.creds.passwordHash

def put (x : Site) (record : Credentials) : Site :=
  let stored := upsert x.stored record
  { x with stored, history := x.history ++ [(stored.getD .empty).passwordHash] }

def retire (x : Site) (record : Credentials) (own : Option Nat) : Site :=
  { x with retired := x.history.filter (· ≠ record.passwordHash), own }

def perform (x : Site) : Op → Site
  | .upsert record => x.put record
  | .deleteOperatorTokens kind except =>
    { x with tokens := x.tokens.filter fun t => t.kind ≠ kind || some t.id = except }
  | .deleteAuthToken id => { x with tokens := x.tokens.filter (·.id ≠ id) }
  | .insertAuthToken kind checked => { x with tokens := x.tokens ++ [⟨x.next, kind, checked⟩], next := x.next + 1 }
  | .replicate _ _ _ => x
  | .succeed record own => x.retire record own

def applyReplicated (x : Site) (e : Event) : Site :=
  let applied := x.stored.all (·.updatedAt ≤ e.record.updatedAt)
  let y := if applied && e.revokeSessions then { x.put e.record with tokens := [] } else x.put e.record
  if e.changes then y.retire e.record none else y

end Site

/-! ### The requests -/

structure Request where
  ops : List Op
  changes : Bool

/-- The calls of a request whose checks succeed. The hash of a new password has a random salt. -/
inductive Call where
  | login
  | verifySecondFactor (token : Nat) (recoveryCode : Option String) (now : Int)
  | confirmTotpEnrollment (token : Nat) (secret : String) (codes : List String) (now : Int)
  | changePassword (token : Nat) (hash : String) (now : Int)
  | setOperatorPassword (hash : String) (now : Int)

def Call.changes : Call → Bool
  | .changePassword _ _ _ | .setOperatorPassword _ _ => true
  | _ => false

def Call.isOwn : Call → Bool
  | .changePassword _ _ _ => true
  | _ => false

def startSession (token : Token) : List Op := [.deleteAuthToken token.id, .insertAuthToken .session token.checked]

def Site.token (x : Site) (id : Nat) : Option Token := x.tokens.find? (·.id = id)

def Call.ops (x : Site) : Call → Option (List Op)
  | .login => if x.hash = "" then none else some [.insertAuthToken .pending x.hash]
  | .verifySecondFactor id code now => do
    let token ← x.token id
    if token.kind ≠ .pending ∨ x.creds.totpEnabled = false then none
    else match code with
      | none => some (startSession token)
      | some code =>
        if x.creds.recoveryCodes.contains code then
          let record := (Change.useCode code).apply now x.creds
          some (.upsert record :: .replicate record false false :: startSession token)
        else none
  | .confirmTotpEnrollment id secret codes now => do
    let token ← x.token id
    let record := (Change.enroll secret codes).apply now x.creds
    match token.kind with
    | .pending =>
      if x.creds.totpEnabled then none
      else some (.upsert record :: .replicate record false false :: startSession token)
    | .session => some [.upsert record, .replicate record false false, .deleteOperatorTokens .session (some token.id)]
  | .changePassword id hash now => do
    let token ← x.token id
    if token.kind ≠ .session ∨ x.hash = "" ∨ hash ∈ "" :: x.history then none
    else
      let record := (Change.setPassword hash).apply now x.creds
      some [.upsert record, .deleteOperatorTokens .session (some token.id), .replicate record false true,
        .succeed record (some token.id)]
  | .setOperatorPassword hash now =>
    if hash ∈ "" :: x.history then none
    else
      let record := (Change.setPassword hash).apply now x.creds
      some [.upsert record, .deleteOperatorTokens .session none, .deleteOperatorTokens .pending none,
        .replicate record true true, .succeed record none]

/-! ### The controllers -/

structure Controller where
  site : Site
  requests : List Request

structure Cluster where
  size : Nat
  controllers : Nat → Controller
  events : List Event

inductive Step where
  | begin (controller : Nat) (call : Call)
  | next (controller i : Nat)
  | deliver (e : Event)

def Controller.advance (c : Controller) (i : Nat) (op : Op) (rest : List Op) (changes : Bool) : Controller where
  site := c.site.perform op
  requests := c.requests.eraseIdx i ++ if rest = [] then [] else [⟨rest, changes⟩]

namespace Cluster

def published (s : Cluster) (controller : Nat) : Op → List Event
  | .replicate record revoke changes =>
    ((List.range s.size).filter (· ≠ controller)).map (⟨·, record, revoke, changes⟩)
  | _ => []

def step (s : Cluster) : Step → Cluster
  | .begin k call =>
    match call.ops (s.controllers k).site with
    | none => s
    | some ops =>
      let c := s.controllers k
      { s with
        controllers := Function.update s.controllers k { c with requests := c.requests ++ [⟨ops, call.changes⟩] } }
  | .next k i =>
    match (s.controllers k).requests[i]? with
    | some ⟨op :: rest, changes⟩ =>
      { s with
        controllers := Function.update s.controllers k ((s.controllers k).advance i op rest changes)
        events := s.events ++ s.published k op }
    | _ => s
  | .deliver e =>
    if e ∈ s.events then
      let c := s.controllers e.controller
      { s with
        controllers := Function.update s.controllers e.controller { c with site := c.site.applyReplicated e }
        events := s.events.erase e }
    else s

def initial (size : Nat) (stored : Nat → Option Credentials) (tokens : Nat → List Token) : Cluster where
  size := size
  controllers k :=
    { site :=
        { stored := stored k
          tokens := tokens k
          next := ((tokens k).map (·.id)).foldl max 0 + 1
          history := ((stored k).getD .empty).passwordHash :: (tokens k).map (·.checked)
          retired := []
          own := none }
      requests := [] }
  events := []

end Cluster

/-- No session rests on a retired hash, except the one that made the change. -/
def Ended (x : Site) : Prop := ∀ t ∈ x.tokens, t.kind = .session → t.checked ∈ x.retired → some t.id = x.own

/-- A password change finds no other request on its controller and none begins while it runs, and `ChangePassword`
finds no pending token. -/
def Controller.MayBegin (c : Controller) (call : Call) : Prop :=
  if call.changes then c.requests = [] ∧ (call.isOwn = true → ∀ t ∈ c.site.tokens, t.kind = .session)
  else ∀ r ∈ c.requests, r.changes = false

/-- The event of a password change finds no request and no newer record, and no token unless it revokes them. Another
event finds no password change that runs, and leaves the hash. -/
def Controller.MayReceive (c : Controller) (e : Event) : Prop :=
  if e.changes then
    c.requests = [] ∧ (∀ r ∈ c.site.stored, r.updatedAt ≤ e.record.updatedAt) ∧
      (e.revokeSessions = false → c.site.tokens = [])
  else (∀ r ∈ c.requests, r.changes = false) ∧ (c.site.put e.record).hash = c.site.hash

def InTurn (s : Cluster) : Step → Prop
  | .begin k call => (s.controllers k).MayBegin call
  | .next _ _ => True
  | .deliver e => (s.controllers e.controller).MayReceive e

/-! ### What one call keeps -/

/-- The hashes that are in use are not retired, and only the session that made the change rests on a retired one. -/
structure Ok (x : Site) : Prop where
  hash : x.hash ∉ x.retired
  pending : ∀ t ∈ x.tokens, t.kind = .pending → t.checked ∉ x.retired
  ended : Ended x
  known : ∀ h ∈ x.retired, h ∈ x.history

def Op.Harmless (retired : List String) : Op → Prop
  | .upsert record => record.passwordHash ∉ retired
  | .insertAuthToken _ checked => checked ∉ retired
  | .succeed _ _ => False
  | _ => True

section

variable {x : Site} {record : Credentials} {own : Option Nat}

theorem hash_put (x : Site) (record : Credentials) :
    (x.put record).hash = record.passwordHash ∨ (x.put record).hash = x.hash := by
  unfold Site.put Site.hash Site.creds upsert
  cases x.stored with
  | none => exact .inl rfl
  | some old =>
    by_cases h : old.updatedAt ≤ record.updatedAt
    · simp [h]
    · simp [h]

theorem hash_put_of_le (h : ∀ r ∈ x.stored, r.updatedAt ≤ record.updatedAt) :
    (x.put record).hash = record.passwordHash := by
  unfold Site.put Site.hash Site.creds upsert
  cases hs : x.stored with
  | none => rfl
  | some old => simp [h old hs]

theorem Ok.put (hx : Ok x) (h : (x.put record).hash ∉ x.retired) : Ok (x.put record) where
  hash := h
  pending := hx.pending
  ended := hx.ended
  known g hg := List.mem_append_left _ (hx.known g hg)

theorem Ok.filter (hx : Ok x) (p : Token → Bool) : Ok { x with tokens := x.tokens.filter p } where
  hash := hx.hash
  pending t ht := hx.pending t (List.mem_of_mem_filter ht)
  ended t ht := hx.ended t (List.mem_of_mem_filter ht)
  known := hx.known

theorem Ok.retire (hhash : x.hash = record.passwordHash)
    (htokens : ∀ t ∈ x.tokens, t.kind = .session ∧ some t.id = own) : Ok (x.retire record own) where
  hash h := of_decide_eq_true (List.mem_filter.mp h).2 hhash
  pending t ht hkind := absurd ((htokens t ht).1.symm.trans hkind) (by decide)
  ended t ht _ _ := (htokens t ht).2
  known _ hg := List.mem_of_mem_filter hg

theorem Ok.insert (hx : Ok x) {kind : Kind} {checked : String} (h : checked ∉ x.retired) :
    Ok (x.perform (.insertAuthToken kind checked)) where
  hash := hx.hash
  pending t ht hkind := by
    rcases List.mem_append.mp ht with ht | ht
    · exact hx.pending t ht hkind
    · rw [List.mem_singleton.mp ht]
      exact h
  ended t ht hkind hret := by
    rcases List.mem_append.mp ht with ht | ht
    · exact hx.ended t ht hkind hret
    · rw [List.mem_singleton.mp ht] at hret
      exact absurd hret h
  known := hx.known

theorem Ok.perform (hx : Ok x) {op : Op} (hop : op.Harmless x.retired) : Ok (x.perform op) := by
  cases op with
  | upsert record =>
    refine hx.put ?_
    rcases hash_put x record with h | h
    · rw [h]
      exact hop
    · rw [h]
      exact hx.hash
  | deleteOperatorTokens kind except => exact hx.filter _
  | deleteAuthToken id => exact hx.filter _
  | insertAuthToken kind checked => exact hx.insert hop
  | replicate record revoke changes => exact hx
  | succeed record own => exact hop.elim

theorem retired_perform {op : Op} (hop : op.Harmless x.retired) : (x.perform op).retired = x.retired := by
  cases op with
  | succeed record own => exact hop.elim
  | _ => rfl

end

/-! ### What a request may do -/

variable {x : Site} {c : Controller} {op : Op}

theorem token_mem {id : Nat} {t : Token} (h : x.token id = some t) : t ∈ x.tokens :=
  List.mem_of_find?_eq_some h

theorem harmless_startSession {t : Token} (hx : Ok x) (ht : t ∈ x.tokens) (hkind : t.kind = .pending) :
    ∀ op ∈ startSession t, op.Harmless x.retired := by
  intro op hop
  rcases List.mem_pair.mp hop with rfl | rfl
  · trivial
  · exact hx.pending t ht hkind

variable {call : Call} {ops : List Op} {e : Event}

/-- A request that is no password change brings no retired hash back, as it read a record and a token without one. -/
theorem harmless_ops (hx : Ok x) (hcall : call.changes = false) (h : call.ops x = some ops) :
    ∀ op ∈ ops, op.Harmless x.retired := by
  cases call with
  | login =>
    simp only [Call.ops] at h
    split_ifs at h
    cases h
    simpa [Op.Harmless] using hx.hash
  | verifySecondFactor id code now =>
    obtain ⟨t, ht, h⟩ := Option.bind_eq_some_iff.mp h
    split_ifs at h with hkind
    have hstart := harmless_startSession hx (token_mem ht) (not_not.mp (not_or.mp hkind).1)
    cases code with
    | none =>
      cases h
      exact hstart
    | some code =>
      simp only at h
      split_ifs at h
      cases h
      exact List.forall_mem_cons.mpr ⟨hx.hash, List.forall_mem_cons.mpr ⟨trivial, hstart⟩⟩
  | confirmTotpEnrollment id secret codes now =>
    obtain ⟨t, ht, h⟩ := Option.bind_eq_some_iff.mp h
    cases hkind : t.kind with
    | pending =>
      simp only [hkind] at h
      split_ifs at h
      cases h
      have hstart := harmless_startSession hx (token_mem ht) hkind
      exact List.forall_mem_cons.mpr ⟨hx.hash, List.forall_mem_cons.mpr ⟨trivial, hstart⟩⟩
    | session =>
      simp only [hkind] at h
      cases h
      exact List.forall_mem_cons.mpr ⟨hx.hash, by simp [Op.Harmless]⟩
  | changePassword | setOperatorPassword => exact nomatch hcall

/-- The write of a new hash takes effect, as the record was read just before. -/
theorem put_setPassword {hash : String} (now : Int) (hx : Ok x) (hnew : hash ∉ "" :: x.history) :
    (x.put ((Change.setPassword hash).apply now x.creds)).hash = hash ∧
      Ok (x.put ((Change.setPassword hash).apply now x.creds)) := by
  have hhash : (x.put ((Change.setPassword hash).apply now x.creds)).hash = hash := by
    refine hash_put_of_le fun r hr => ?_
    have hlt := updatedAt_apply now x.creds (.setPassword hash)
    rw [Site.creds, hr] at hlt
    rw [Site.creds, hr]
    exact Int.le_of_lt hlt
  refine ⟨hhash, hx.put ?_⟩
  rw [hhash]
  exact fun h => hnew (List.mem_cons_of_mem _ (hx.known _ h))

theorem along_change (hx : Ok x) (hcall : call.changes = true)
    (hpend : call.isOwn = true → ∀ t ∈ x.tokens, t.kind = .session) (h : call.ops x = some ops) :
    Along Site.perform Ok x ops := by
  cases call with
  | changePassword id hash now =>
    obtain ⟨t, ht, h⟩ := Option.bind_eq_some_iff.mp h
    split_ifs at h with hno
    simp only [not_or] at hno
    cases h
    obtain ⟨hhash, hput⟩ := put_setPassword now hx hno.2.2
    have hdel := hput.filter fun s => s.kind ≠ .session || some s.id = some t.id
    refine ⟨hx, hput, hdel, hdel, Ok.retire hhash fun s hs => ?_⟩
    obtain ⟨hs, hown⟩ := List.mem_filter.mp hs
    have hkind := hpend rfl s hs
    exact ⟨hkind, by simpa [hkind] using hown⟩
  | setOperatorPassword hash now =>
    simp only [Call.ops] at h
    split_ifs at h with hno
    cases h
    obtain ⟨hhash, hput⟩ := put_setPassword now hx hno
    have hdel := hput.filter fun s => s.kind ≠ .session || some s.id = none
    have hdel' := hdel.filter fun s => s.kind ≠ .pending || some s.id = none
    refine ⟨hx, hput, hdel, hdel', hdel', Ok.retire hhash fun s hs => ?_⟩
    obtain ⟨hs, hpending⟩ := List.mem_filter.mp hs
    have hsession := (List.mem_filter.mp hs).2
    cases hkind : s.kind <;> simp [hkind] at hpending hsession
  | login | verifySecondFactor | confirmTotpEnrollment => exact nomatch hcall

/-! ### Controllers -/

/-- A request that is no password change is harmless, and a password change is alone and will end well. -/
structure Controller.Inv (c : Controller) : Prop where
  ok : Ok c.site
  harmless : ∀ r ∈ c.requests, r.changes = false → ∀ op ∈ r.ops, op.Harmless c.site.retired
  change : ∀ r ∈ c.requests, r.changes = true → c.requests = [r] ∧ Along Site.perform Ok c.site r.ops

theorem inv_begin (hc : c.Inv) (h : call.ops c.site = some ops) (hturn : c.MayBegin call) :
    ({ c with requests := c.requests ++ [⟨ops, call.changes⟩] } : Controller).Inv := by
  unfold Controller.MayBegin at hturn
  cases hcall : call.changes with
  | true =>
    rw [hcall, if_pos rfl] at hturn
    obtain ⟨hnone, hpend⟩ := hturn
    rw [hnone, List.nil_append]
    refine ⟨hc.ok, fun r hr hch => ?_, fun r hr _ => ?_⟩ <;> obtain rfl := List.mem_singleton.mp hr
    · exact nomatch hch
    · exact ⟨rfl, along_change hc.ok hcall hpend h⟩
  | false =>
    rw [hcall] at hturn
    refine ⟨hc.ok, fun r hr hch => ?_, fun r hr hch => ?_⟩ <;> rcases List.mem_append.mp hr with hr | hr
    · exact hc.harmless r hr hch
    · obtain rfl := List.mem_singleton.mp hr
      exact harmless_ops hc.ok hcall h
    · exact absurd ((hturn r hr).symm.trans hch) (by decide)
    · obtain rfl := List.mem_singleton.mp hr
      exact nomatch hch

theorem mem_advance {i : Nat} {rest : List Op} {changes : Bool} {r : Request}
    (h : r ∈ (c.advance i op rest changes).requests) : r ∈ c.requests ∨ r = ⟨rest, changes⟩ := by
  rcases List.mem_append.mp h with h | h
  · exact .inl (List.mem_of_mem_eraseIdx h)
  · split_ifs at h
    · exact nomatch h
    · exact .inr (List.mem_singleton.mp h)

theorem inv_advance {i : Nat} {rest : List Op} {changes : Bool} (hc : c.Inv)
    (h : c.requests[i]? = some ⟨op :: rest, changes⟩) : (c.advance i op rest changes).Inv := by
  have hmem := List.mem_of_getElem? h
  cases changes with
  | true =>
    -- the change is the only request, so that what it has left is the rest of its calls
    obtain ⟨hone, halong⟩ := hc.change _ hmem rfl
    have hi : i = 0 := by
      rw [hone] at h
      exact Nat.lt_one_iff.mp (List.getElem?_eq_some_iff.mp h).1
    have hreq : (c.advance i op rest true).requests = if rest = [] then [] else [⟨rest, true⟩] := by
      simp [Controller.advance, hone, hi]
    refine ⟨?_, fun r hr hch => ?_, fun r hr _ => ?_⟩
    · cases rest with
      | nil => exact halong.2
      | cons o os => exact halong.2.1
    · rw [hreq] at hr
      split_ifs at hr
      · exact nomatch hr
      · obtain rfl := List.mem_singleton.mp hr
        exact nomatch hch
    · rw [hreq] at hr ⊢
      split_ifs at hr ⊢
      · exact nomatch hr
      · obtain rfl := List.mem_singleton.mp hr
        exact ⟨rfl, halong.2⟩
  | false =>
    have hops := hc.harmless _ hmem rfl
    have hop := hops op List.mem_cons_self
    have hret : (c.advance i op rest false).site.retired = c.site.retired := retired_perform hop
    refine ⟨hc.ok.perform hop, fun r hr hch => ?_, fun r hr hch => ?_⟩
    · rw [hret]
      rcases mem_advance hr with hr | rfl
      · exact hc.harmless r hr hch
      · exact fun o ho => hops o (List.mem_cons_of_mem _ ho)
    · rcases mem_advance hr with hr | rfl
      · obtain ⟨hone, -⟩ := hc.change r hr hch
        rw [hone, List.mem_singleton] at hmem
        rw [← hmem] at hch
        exact nomatch hch
      · exact nomatch hch

theorem ok_applyReplicated_change (hch : e.changes = true) (hnew : ∀ r ∈ x.stored, r.updatedAt ≤ e.record.updatedAt)
    (htok : e.revokeSessions = false → x.tokens = []) : Ok (x.applyReplicated e) := by
  have happlied : x.stored.all (·.updatedAt ≤ e.record.updatedAt) = true := by
    cases hs : x.stored with
    | none => rfl
    | some r => simpa using hnew r hs
  have hhash : (x.put e.record).hash = e.record.passwordHash := hash_put_of_le hnew
  unfold Site.applyReplicated
  simp only [happlied, hch, Bool.true_and, if_true]
  cases hrev : e.revokeSessions with
  | true => exact Ok.retire hhash fun t ht => (nomatch ht)
  | false =>
    refine Ok.retire hhash fun t ht => ?_
    have hempty : (x.put e.record).tokens = [] := htok hrev
    simp only [Bool.false_eq_true, if_false] at ht
    rw [hempty] at ht
    exact nomatch ht

theorem ok_applyReplicated (hx : Ok x) (hch : e.changes = false) (hhash : (x.put e.record).hash = x.hash) :
    Ok (x.applyReplicated e) ∧ (x.applyReplicated e).retired = x.retired := by
  have hput : Ok (x.put e.record) := hx.put (hhash ▸ hx.hash)
  unfold Site.applyReplicated
  simp only [hch, Bool.false_eq_true, if_false]
  split_ifs
  · exact ⟨⟨hput.hash, fun t ht => (nomatch ht), fun t ht => (nomatch ht), hput.known⟩, rfl⟩
  · exact ⟨hput, rfl⟩

theorem inv_deliver (hc : c.Inv) (hturn : c.MayReceive e) :
    ({ c with site := c.site.applyReplicated e } : Controller).Inv := by
  unfold Controller.MayReceive at hturn
  cases hch : e.changes with
  | true =>
    rw [hch, if_pos rfl] at hturn
    obtain ⟨hnone, hnew, htok⟩ := hturn
    refine ⟨ok_applyReplicated_change hch hnew htok, fun r hr => ?_, fun r hr => ?_⟩
    · rw [hnone] at hr
      exact nomatch hr
    · rw [hnone] at hr
      exact nomatch hr
  | false =>
    rw [hch] at hturn
    obtain ⟨hnone, hhash⟩ := hturn
    obtain ⟨hok, hret⟩ := ok_applyReplicated hc.ok hch hhash
    refine ⟨hok, fun r hr hr' => ?_, fun r hr hr' => ?_⟩
    · rw [hret]
      exact hc.harmless r hr hr'
    · exact absurd ((hnone r hr).symm.trans hr') (by decide)

/-! ### Runs -/

def Inv (s : Cluster) : Prop := ∀ k, (s.controllers k).Inv

theorem inv_update {s : Cluster} {k : Nat} (hs : Inv s) (hc : c.Inv) (j : Nat) :
    (Function.update s.controllers k c j).Inv := by
  by_cases h : j = k
  · subst h
    rw [Function.update_self]
    exact hc
  · rw [Function.update_of_ne h]
    exact hs j

theorem inv_step {s : Cluster} {a : Step} (hs : Inv s) (hturn : InTurn s a) : Inv (s.step a) := by
  cases a with
  | begin k call =>
    simp only [Cluster.step]
    cases hops : call.ops (s.controllers k).site with
    | none => exact hs
    | some ops => exact inv_update hs (inv_begin (hs k) hops hturn)
  | next k i =>
    simp only [Cluster.step]
    cases hr : (s.controllers k).requests[i]? with
    | none => exact hs
    | some r =>
      obtain ⟨_ | ⟨op, rest⟩, changes⟩ := r
      · exact hs
      · exact inv_update hs (inv_advance (hs k) hr)
  | deliver e =>
    simp only [Cluster.step]
    split_ifs
    · exact inv_update hs (inv_deliver (hs e.controller) hturn)
    · exact hs

theorem inv_initial (size : Nat) (stored : Nat → Option Credentials) (tokens : Nat → List Token) :
    Inv (.initial size stored tokens) := by
  intro k
  refine ⟨⟨?_, ?_, ?_, ?_⟩, ?_, ?_⟩ <;> simp [Cluster.initial, Ended]

/-- A password change ends the old sign-ins on every controller it has reached, if requests and events come in turn. -/
theorem old_sign_ins_ended (size : Nat) (stored : Nat → Option Credentials) (tokens : Nat → List Token)
    (run : List Step)
    (hturn : Each Cluster.step InTurn (.initial size stored tokens) run) :
    Along Cluster.step (fun s => ∀ k, Ended (s.controllers k).site) (.initial size stored tokens) run := by
  have hinv := along_of_each (inv_initial size stored tokens) (fun _ _ => inv_step) hturn
  exact hinv.mono fun s hs k => (hs k).ok.ended

/-! ### A sign-in that outlives a change -/

def signedIn (size : Nat) : Cluster :=
  .initial size (fun _ => some ⟨"old", "seed", true, [], 10⟩) fun _ => [⟨0, .session, "old"⟩]

def overtaken : List Step :=
  [.begin 0 .login, .next 0 0, .begin 0 (.changePassword 0 "new" 20), .next 0 0, .next 0 0, .next 0 0, .next 0 0,
    .begin 0 (.verifySecondFactor 1 none 30), .next 0 0, .next 0 0]

theorem pending_login_survives_change :
    ¬Along Cluster.step (fun s => ∀ k, Ended (s.controllers k).site) (signedIn 1) overtaken := by
  intro h
  have hmem : (⟨2, .session, "old"⟩ : Token) ∈
    ((run Cluster.step (signedIn 1) overtaken).controllers 0).site.tokens := by
    decide
  exact absurd (h.last 0 _ hmem rfl (by decide)) (by decide)

/-- The password is set on one controller, and its event reaches the other one before the operator signs in there. -/
theorem old_sign_ins_ended_in_turn :
    Along Cluster.step (fun s => ∀ k, Ended (s.controllers k).site) (signedIn 2)
      [.begin 0 (.setOperatorPassword "new" 20), .next 0 0, .next 0 0, .next 0 0, .next 0 0, .next 0 0,
        .deliver ⟨1, ⟨"new", "seed", true, [], 20⟩, true, true⟩, .begin 1 .login, .next 1 0] := by
  refine old_sign_ins_ended 2 _ _ _ ⟨⟨rfl, fun h => absurd h (by decide)⟩, trivial, trivial, trivial, trivial,
    trivial, ?_, ?_, trivial, trivial⟩
  · refine ⟨rfl, fun r hr => ?_, fun h => absurd h (by decide)⟩
    rw [← Option.some.inj hr]
    decide
  · exact fun r hr => nomatch hr

end Kcore.WebAuth.SignIn
