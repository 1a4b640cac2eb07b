import Kcore.Lib.Run
import Kcore.WebAuth.Credentials

/-!
# Second factors

`VerifySecondFactor` and `ConfirmTotpEnrollment` of one operator on one controller, one call to the database at a time.
A time step is claimed by one update that checks that it is later than the last one. A recovery code is used by reading
the credentials and writing them back without it. The bearer tokens are left out, and the calls that only write to the
replication log; a call that fails ends its request.
-/

namespace Kcore.WebAuth

open Machine

inductive Factor where
  | step (n : Int)
  | code (hash : String)
  deriving DecidableEq

structure Secrets where
  verifyTotp : (secret code : String) → (now : Int) → Option Int
  recoveryHash : String → Option String

/-- `match_recovery_code`: the stored hash that matches. -/
def Secrets.matchRecoveryCode (S : Secrets) (code : String) (hashes : List String) : Option String :=
  (S.recoveryHash code).filter (· ∈ hashes)

structure LoginState where
  failedAttempts : Int
  lockedUntil : Int
  lastTotpStep : Int
  pendingTotpSecret : String

/-- The rows of the operator. `known` has every recovery code that was ever stored and `sessions` what each session was
issued for. -/
structure Db where
  creds : Option Credentials
  login : LoginState
  known : List String
  sessions : List Factor

def Db.credentials (db : Db) : Credentials := db.creds.getD .empty

structure WebConfig where
  maxFailedLogins : Int
  lockoutSecs : Int

structure Verify where
  totpCode : String
  recoveryCode : String

/-- `pending` says that the caller has a pending token and not a session. -/
structure Confirm where
  totpCode : String
  pending : Bool

inductive Stage where
  | verifyLock (r : Verify)
  | verifyCreds (r : Verify)
  | verifyClaim (step : Int)
  | useCode (read : Credentials) (code : String)
  | confirmCreds (r : Confirm)
  | confirmLock (r : Confirm) (read : Credentials)
  | confirmSecret (r : Confirm) (read : Credentials)
  | confirmClaim (r : Confirm) (read : Credentials) (secret : String) (step : Int)
  | enroll (r : Confirm) (read : Credentials) (secret : String) (step : Int)
  | clearSecret (r : Confirm) (step : Int)
  | clearFailures (f : Factor)
  | insertSession (f : Factor)
  | fail
  | done

structure Chance where
  now : Int
  codes : List String

def Db.claimTotpStep (db : Db) (step : Int) : Option Db :=
  if db.login.lastTotpStep < step then some { db with login := { db.login with lastTotpStep := step } } else none

def Db.recordLoginFailure (cfg : WebConfig) (db : Db) (now : Int) : Db :=
  let attempts := db.login.failedAttempts + 1
  let login := if cfg.maxFailedLogins ≤ attempts
    then { db.login with failedAttempts := 0, lockedUntil := now + cfg.lockoutSecs }
    else { db.login with failedAttempts := attempts }
  { db with login }

/-- What `verify_second_factor` does with the credentials. -/
def checkFactor (S : Secrets) (r : Verify) (creds : Credentials) (now : Int) : Stage :=
  if ¬ creds.totpEnabled then .done
  else if trim r.totpCode ≠ "" then
    match S.verifyTotp creds.totpSecret (trim r.totpCode) now with
    | none => .fail
    | some step => .verifyClaim step
  else if trim r.recoveryCode ≠ "" then
    match S.matchRecoveryCode (trim r.recoveryCode) creds.recoveryCodes with
    | none => .fail
    | some code => .useCode creds code
  else .done

variable (S : Secrets) (cfg : WebConfig)

/-- One call of `verify_second_factor` or `confirm_totp_enrollment`. The answer of the write is ignored. -/
def advance (c : Chance) (db : Db) : Stage → Stage × Db
  | .verifyLock r => (if c.now < db.login.lockedUntil then .done else .verifyCreds r, db)
  | .verifyCreds r => (checkFactor S r db.credentials c.now, db)
  | .verifyClaim step =>
    match db.claimTotpStep step with
    | none => (.fail, db)
    | some db' => (.clearFailures (.step step), db')
  | .useCode read code =>
    (.clearFailures (.code code), { db with creds := upsert db.creds ((Change.useCode code).apply c.now read) })
  | .confirmCreds r =>
    (if r.pending ∧ db.credentials.totpEnabled then .done else .confirmLock r db.credentials, db)
  | .confirmLock r read => (if c.now < db.login.lockedUntil then .done else .confirmSecret r read, db)
  | .confirmSecret r read =>
    let secret := db.login.pendingTotpSecret
    (if secret = "" then .done
      else match S.verifyTotp secret r.totpCode c.now with
        | none => .fail
        | some step => .confirmClaim r read secret step, db)
  | .confirmClaim r read secret step =>
    match db.claimTotpStep step with
    | none => (.fail, db)
    | some db' => (.enroll r read secret step, db')
  | .enroll r read secret step =>
    (.clearSecret r step, { db with
      creds := upsert db.creds ((Change.enroll secret c.codes).apply c.now read), known := db.known ++ c.codes })
  | .clearSecret r step =>
    (if r.pending then .clearFailures (.step step) else .done,
      { db with login := { db.login with pendingTotpSecret := "" } })
  | .clearFailures f => (.insertSession f, { db with login := { db.login with failedAttempts := 0, lockedUntil := 0 } })
  | .insertSession f => (.done, { db with sessions := db.sessions ++ [f] })
  | .fail => (.done, db.recordLoginFailure cfg c.now)
  | .done => (.done, db)

structure System where
  db : Db
  tasks : List Stage

inductive Action where
  | verify (r : Verify)
  | confirm (r : Confirm)
  | beginEnrollment (secret : String)
  | call (i : Nat) (c : Chance)
  | abandon (i : Nat)

def System.step (s : System) : Action → System
  | .verify r => { s with tasks := s.tasks ++ [.verifyLock r] }
  | .confirm r => { s with tasks := s.tasks ++ [.confirmCreds r] }
  | .beginEnrollment secret =>
    { s with db := { s.db with login := { s.db.login with pendingTotpSecret := secret } } }
  | .call i c =>
    match s.tasks[i]? with
    | none => s
    | some stage => ⟨(advance S cfg c s.db stage).2, s.tasks.set i (advance S cfg c s.db stage).1⟩
  | .abandon i => { s with tasks := s.tasks.set i .done }

/-- When a recovery code is taken out of the credentials, they are still those that were read; new recovery codes are
new. -/
def UndisturbedCall (db : Db) (c : Chance) : Stage → Prop
  | .useCode read _ => db.creds = some read
  | .enroll _ _ _ _ => c.codes.Nodup ∧ ∀ code ∈ c.codes, code ∉ db.known
  | _ => True

def Undisturbed (s : System) : Action → Prop
  | .call i c => ∀ stage ∈ s.tasks[i]?, UndisturbedCall s.db c stage
  | _ => True

/-! ### One call -/

def Stage.held : Stage → Option Factor
  | .enroll _ _ _ step | .clearSecret _ step => some (.step step)
  | .clearFailures f | .insertSession f => some f
  | _ => none

def Spent (db : Db) : Factor → Prop
  | .step n => n ≤ db.login.lastTotpStep
  | .code hash => hash ∈ db.known ∧ hash ∉ db.credentials.recoveryCodes

def CodesKnown (db : Db) : Prop :=
  db.credentials.recoveryCodes.Nodup ∧ ∀ code ∈ db.credentials.recoveryCodes, code ∈ db.known

def Stage.Ok : Stage → Prop
  | .useCode read code => code ∈ read.recoveryCodes
  | _ => True

/-- What a call does about factors: it lets its request have one that was not spent, issues a session for the one the
request has, or does neither. -/
inductive Effect (db db' : Db) (stage stage' : Stage) : Prop
  | keep (hsessions : db'.sessions = db.sessions) (hheld : stage'.held = none ∨ stage'.held = stage.held)
  | grant (f : Factor) (hsessions : db'.sessions = db.sessions) (hheld : stage'.held = some f) (hnew : ¬ Spent db f)
      (hspent : Spent db' f)
  | issue (f : Factor) (hsessions : db'.sessions = db.sessions ++ [f]) (hhad : stage.held = some f)
      (hheld : stage'.held = none)

structure CallOk (db db' : Db) (stage stage' : Stage) : Prop where
  effect : Effect db db' stage stage'
  spent : ∀ f, Spent db f → Spent db' f
  codes : CodesKnown db'
  ok : stage'.Ok

section Calls

variable {db db' : Db} {stage stage' : Stage}

theorem CallOk.plain (hcodes : CodesKnown db) (hcreds : db'.creds = db.creds) (hknown : db'.known = db.known)
    (hstep : db'.login.lastTotpStep = db.login.lastTotpStep) (heffect : Effect db db' stage stage') (hok : stage'.Ok) :
    CallOk db db' stage stage' := by
  have hcredentials : db'.credentials = db.credentials := by rw [Db.credentials, Db.credentials, hcreds]
  refine ⟨heffect, fun f hf => ?_, ?_, hok⟩
  · cases f with
    | step n =>
      change n ≤ db'.login.lastTotpStep
      rw [hstep]
      exact hf
    | code hash => exact ⟨hknown ▸ hf.1, hcredentials ▸ hf.2⟩
  · unfold CodesKnown
    rw [hcredentials, hknown]
    exact hcodes

theorem CallOk.claim {step : Int} (hcodes : CodesKnown db) (h : db.claimTotpStep step = some db')
    (hheld : stage'.held = some (.step step)) (hok : stage'.Ok) : CallOk db db' stage stage' := by
  unfold Db.claimTotpStep at h
  split_ifs at h with hlater
  cases h
  refine ⟨.grant (.step step) rfl hheld (fun hspent => ?_) (Int.le_refl step), fun f hf => ?_, hcodes, hok⟩
  · exact absurd hlater (Int.not_lt.mpr hspent)
  · cases f with
    | step n => exact Int.le_of_lt (Int.lt_of_le_of_lt hf hlater)
    | code hash => exact hf

theorem upsert_applied {read creds : Credentials} (h : read.updatedAt < creds.updatedAt) :
    upsert (some read) creds = some creds := if_pos (Int.le_of_lt h)

theorem upsert_cases (stored : Option Credentials) (creds : Credentials) :
    upsert stored creds = some creds ∨ upsert stored creds = stored := by
  unfold upsert
  split
  · exact .inl rfl
  · split
    · exact .inl rfl
    · exact .inr rfl

theorem CallOk.useCode {read : Credentials} {code : String} (hcodes : CodesKnown db) (now : Int)
    (hread : db.creds = some read)
    (hcode : code ∈ read.recoveryCodes) :
    CallOk db { db with creds := upsert db.creds ((Change.useCode code).apply now read) } (.useCode read code)
      (.clearFailures (.code code)) := by
  have hcredentials : db.credentials = read := by rw [Db.credentials, hread, Option.getD_some]
  rw [hread, upsert_applied (updatedAt_apply now read _)]
  unfold CodesKnown at hcodes
  rw [hcredentials] at hcodes
  have hsub : ∀ c ∈ read.recoveryCodes.erase code, c ∈ read.recoveryCodes := fun c hc => List.mem_of_mem_erase hc
  refine ⟨.grant (.code code) rfl rfl ?_ ?_, fun f hf => ?_, ?_, trivial⟩
  · rintro ⟨-, hgone⟩
    rw [hcredentials] at hgone
    exact hgone hcode
  · exact ⟨hcodes.2 code hcode, hcodes.1.not_mem_erase⟩
  · cases f with
    | step n => exact hf
    | code hash => exact ⟨hf.1, fun hmem => hf.2 (hcredentials ▸ hsub hash hmem)⟩
  · exact ⟨hcodes.1.erase code, fun c hc => hcodes.2 c (hsub c hc)⟩

theorem CallOk.enroll {r : Confirm} {read : Credentials} {secret : String} {step : Int} {c : Chance}
    (hcodes : CodesKnown db) (hnodup : c.codes.Nodup) (hnew : ∀ code ∈ c.codes, code ∉ db.known) :
    CallOk db { db with
      creds := upsert db.creds ((Change.enroll secret c.codes).apply c.now read), known := db.known ++ c.codes }
      (.enroll r read secret step) (.clearSecret r step) := by
  refine ⟨.keep rfl (.inr rfl), fun f hf => ?_, ?_, trivial⟩
  · cases f with
    | step n => exact hf
    | code hash =>
      refine ⟨List.mem_append_left _ hf.1, fun hmem => ?_⟩
      rcases upsert_cases db.creds ((Change.enroll secret c.codes).apply c.now read) with hput | hkept
      · rw [Db.credentials, hput] at hmem
        exact hnew hash hmem hf.1
      · rw [Db.credentials, hkept] at hmem
        exact hf.2 hmem
  · unfold CodesKnown Db.credentials
    rcases upsert_cases db.creds ((Change.enroll secret c.codes).apply c.now read) with hput | hkept
    · simp only [hput, Option.getD_some]
      exact ⟨hnodup, fun code hcode => List.mem_append_right _ hcode⟩
    · simp only [hkept]
      exact ⟨hcodes.1, fun code hcode => List.mem_append_left _ (hcodes.2 code hcode)⟩

end Calls

variable {S cfg}

theorem checkFactor_held (r : Verify) (creds : Credentials) (now : Int) :
    (checkFactor S r creds now).held = none ∧ (checkFactor S r creds now).Ok := by
  unfold checkFactor
  split
  · exact ⟨rfl, trivial⟩
  · split
    · split <;> exact ⟨rfl, trivial⟩
    · split
      · split
        · exact ⟨rfl, trivial⟩
        · next code hcode => exact ⟨rfl, by simpa [Stage.Ok] using (Option.filter_eq_some_iff.mp hcode).2⟩
      · exact ⟨rfl, trivial⟩

theorem callOk_advance {db : Db} {c : Chance} {stage : Stage} (hcodes : CodesKnown db) (hok : stage.Ok)
    (h : UndisturbedCall db c stage) :
    CallOk db (advance S cfg c db stage).2 stage (advance S cfg c db stage).1 := by
  cases stage with
  | verifyLock | confirmLock | confirmCreds =>
    refine .plain hcodes rfl rfl rfl (.keep rfl ?_) ?_ <;> simp only [advance] <;> split
    exacts [.inl rfl, .inl rfl, trivial, trivial]
  | verifyCreds r =>
    have hcheck := checkFactor_held (S := S) r db.credentials c.now
    exact .plain hcodes rfl rfl rfl (.keep rfl (.inl hcheck.1)) hcheck.2
  | useCode read code => exact .useCode hcodes c.now h hok
  | confirmSecret r read =>
    simp only [advance]
    split
    · exact .plain hcodes rfl rfl rfl (.keep rfl (.inl rfl)) trivial
    · split <;> exact .plain hcodes rfl rfl rfl (.keep rfl (.inl rfl)) trivial
  | verifyClaim step | confirmClaim _ _ _ step =>
    simp only [advance]
    cases hclaim : db.claimTotpStep step with
    | none => exact .plain hcodes rfl rfl rfl (.keep rfl (.inl rfl)) trivial
    | some db' => exact .claim hcodes hclaim rfl trivial
  | enroll r read secret step => exact .enroll hcodes h.1 h.2
  | clearSecret r step =>
    simp only [advance]
    split
    · exact .plain hcodes rfl rfl rfl (.keep rfl (.inr rfl)) trivial
    · exact .plain hcodes rfl rfl rfl (.keep rfl (.inl rfl)) trivial
  | clearFailures f => exact .plain hcodes rfl rfl rfl (.keep rfl (.inr rfl)) trivial
  | insertSession f => exact .plain hcodes rfl rfl rfl (.issue f rfl rfl rfl) trivial
  | fail =>
    refine .plain hcodes rfl rfl ?_ (.keep rfl (.inl rfl)) trivial
    simp only [advance, Db.recordLoginFailure]
    split <;> rfl
  | done => exact .plain hcodes rfl rfl rfl (.keep rfl (.inl rfl)) trivial

/-! ### Runs -/

def System.holder (s : System) (i : Nat) : Option Factor := (s.tasks[i]?).bind Stage.held

/-- Every factor was had by one request at most, and is spent. -/
structure SingleUse (s : System) : Prop where
  nodup : s.db.sessions.Nodup
  unused : ∀ i f, s.holder i = some f → f ∉ s.db.sessions
  one : ∀ i j f, s.holder i = some f → s.holder j = some f → i = j
  spent : ∀ f, (f ∈ s.db.sessions ∨ ∃ i, s.holder i = some f) → Spent s.db f
  codes : CodesKnown s.db
  ok : ∀ stage ∈ s.tasks, stage.Ok

section Steps

variable {s : System} {db' : Db} {i : Nat} {stage stage' : Stage}

theorem holder_set (htask : s.tasks[i]? = some stage) (j : Nat) :
    System.holder ⟨db', s.tasks.set i stage'⟩ j = if i = j then stage'.held else s.holder j := by
  obtain ⟨hi, -⟩ := List.getElem?_eq_some_iff.mp htask
  unfold System.holder
  rw [List.getElem?_set]
  split
  · next hij =>
    subst hij
    simp
  · rfl

theorem holder_of_task (htask : s.tasks[i]? = some stage) : s.holder i = stage.held := by
  simp [System.holder, htask]

theorem SingleUse.ok_set (h : SingleUse s) (hok : stage'.Ok) : ∀ st ∈ s.tasks.set i stage', st.Ok := by
  intro st hst
  rcases List.mem_or_eq_of_mem_set hst with hst | rfl
  · exact h.ok st hst
  · exact hok

theorem SingleUse.set_keep (h : SingleUse s) (htask : s.tasks[i]? = some stage) (hcall : CallOk s.db db' stage stage')
    (hsessions : db'.sessions = s.db.sessions) (hheld : stage'.held = none ∨ stage'.held = stage.held) :
    SingleUse ⟨db', s.tasks.set i stage'⟩ := by
  have hold : ∀ j f, System.holder ⟨db', s.tasks.set i stage'⟩ j = some f → s.holder j = some f := by
    intro j f hf
    rw [holder_set htask] at hf
    split at hf
    · next hij =>
      rcases hheld with hnone | hsame
      · exact nomatch hnone.symm.trans hf
      · rw [← hij, holder_of_task htask, ← hsame, hf]
    · exact hf
  refine ⟨hsessions ▸ h.nodup, fun j f hf => hsessions ▸ h.unused j f (hold j f hf),
    fun j k f hj hk => h.one j k f (hold j f hj) (hold k f hk), fun f hf => hcall.spent f (h.spent f ?_), hcall.codes,
    h.ok_set hcall.ok⟩
  rcases hf with hf | ⟨j, hj⟩
  · exact .inl (hsessions ▸ hf)
  · exact .inr ⟨j, hold j f hj⟩

theorem SingleUse.set_grant (h : SingleUse s) (htask : s.tasks[i]? = some stage) (hcall : CallOk s.db db' stage stage')
    {f : Factor} (hsessions : db'.sessions = s.db.sessions) (hheld : stage'.held = some f) (hnew : ¬ Spent s.db f)
    (hspent : Spent db' f) : SingleUse ⟨db', s.tasks.set i stage'⟩ := by
  -- what is in a session or with a request is spent, and `f` was not
  have hfree : f ∉ s.db.sessions ∧ ∀ j, s.holder j ≠ some f :=
    ⟨fun hmem => hnew (h.spent f (.inl hmem)), fun j hj => hnew (h.spent f (.inr ⟨j, hj⟩))⟩
  have hold : ∀ j g, System.holder ⟨db', s.tasks.set i stage'⟩ j = some g →
      (i = j ∧ f = g) ∨ (i ≠ j ∧ s.holder j = some g) := by
    intro j g hg
    rw [holder_set htask] at hg
    split at hg
    · next hij => exact .inl ⟨hij, Option.some.inj (hheld.symm.trans hg)⟩
    · next hij => exact .inr ⟨hij, hg⟩
  refine ⟨hsessions ▸ h.nodup, fun j g hg => ?_, fun j k g hj hk => ?_, fun g hg => ?_, hcall.codes, h.ok_set hcall.ok⟩
  · rw [hsessions]
    rcases hold j g hg with ⟨-, rfl⟩ | ⟨-, hg⟩
    · exact hfree.1
    · exact h.unused j g hg
  · rcases hold j g hj with ⟨hj, hf⟩ | ⟨-, hj⟩ <;> rcases hold k g hk with ⟨hk, hf'⟩ | ⟨-, hk⟩
    · exact hj.symm.trans hk
    · exact absurd (hf ▸ hk) (hfree.2 k)
    · exact absurd (hf' ▸ hj) (hfree.2 j)
    · exact h.one j k g hj hk
  · rcases hg with hg | ⟨j, hj⟩
    · exact hcall.spent g (h.spent g (.inl (hsessions ▸ hg)))
    · rcases hold j g hj with ⟨-, rfl⟩ | ⟨-, hj⟩
      · exact hspent
      · exact hcall.spent g (h.spent g (.inr ⟨j, hj⟩))

theorem SingleUse.set_issue (h : SingleUse s) (htask : s.tasks[i]? = some stage) (hcall : CallOk s.db db' stage stage')
    {f : Factor} (hsessions : db'.sessions = s.db.sessions ++ [f]) (hhad : stage.held = some f)
    (hheld : stage'.held = none) : SingleUse ⟨db', s.tasks.set i stage'⟩ := by
  have hf : s.holder i = some f := (holder_of_task htask).trans hhad
  have hold : ∀ j g, System.holder ⟨db', s.tasks.set i stage'⟩ j = some g → i ≠ j ∧ s.holder j = some g := by
    intro j g hg
    rw [holder_set htask] at hg
    split at hg
    · exact nomatch hheld.symm.trans hg
    · next hij => exact ⟨hij, hg⟩
  refine ⟨?_, fun j g hg => ?_, fun j k g hj hk => h.one j k g (hold j g hj).2 (hold k g hk).2, fun g hg => ?_,
    hcall.codes, h.ok_set hcall.ok⟩
  · rw [hsessions]
    refine List.nodup_append.mpr ⟨h.nodup, List.pairwise_singleton _ _, fun a ha b hb hab => ?_⟩
    rw [hab, List.mem_singleton.mp hb] at ha
    exact h.unused i f hf ha
  · rw [hsessions]
    intro hmem
    rcases List.mem_append.mp hmem with hmem | hmem
    · exact h.unused j g (hold j g hg).2 hmem
    · rw [List.mem_singleton.mp hmem] at hg
      exact (hold j f hg).1 (h.one i j f hf (hold j f hg).2)
  · refine hcall.spent g (h.spent g ?_)
    rcases hg with hg | ⟨j, hj⟩
    · rw [hsessions] at hg
      rcases List.mem_append.mp hg with hg | hg
      · exact .inl hg
      · rw [List.mem_singleton.mp hg]
        exact .inr ⟨i, hf⟩
    · exact .inr ⟨j, (hold j g hj).2⟩

theorem SingleUse.set (h : SingleUse s) (htask : s.tasks[i]? = some stage) (hcall : CallOk s.db db' stage stage') :
    SingleUse ⟨db', s.tasks.set i stage'⟩ := by
  cases hcall.effect with
  | keep hsessions hheld => exact h.set_keep htask hcall hsessions hheld
  | grant f hsessions hheld hnew hspent => exact h.set_grant htask hcall hsessions hheld hnew hspent
  | issue f hsessions hhad hheld => exact h.set_issue htask hcall hsessions hhad hheld

theorem SingleUse.start (h : SingleUse s) (hheld : stage.held = none) (hok : stage.Ok) :
    SingleUse { s with tasks := s.tasks ++ [stage] } := by
  have hold : ∀ j f, System.holder { s with tasks := s.tasks ++ [stage] } j = some f → s.holder j = some f := by
    intro j f hf
    unfold System.holder at hf ⊢
    by_cases hj : j < s.tasks.length
    · rwa [List.getElem?_append_left hj] at hf
    · rw [List.getElem?_append_right (Nat.le_of_not_lt hj)] at hf
      cases hk : j - s.tasks.length with
      | zero => simp [hk, hheld] at hf
      | succ k => simp [hk] at hf
  refine ⟨h.nodup, fun j f hf => h.unused j f (hold j f hf), fun j k f hj hk => h.one j k f (hold j f hj) (hold k f hk),
    fun f hf => h.spent f (hf.imp_right fun ⟨j, hj⟩ => ⟨j, hold j f hj⟩), h.codes, fun st hst => ?_⟩
  rcases List.mem_append.mp hst with hst | hst
  · exact h.ok st hst
  · rw [List.mem_singleton.mp hst]
    exact hok

theorem singleUse_step {a : Action} (h : SingleUse s) (ha : Undisturbed s a) : SingleUse (s.step S cfg a) := by
  cases a with
  | verify r | confirm r => exact h.start rfl trivial
  | beginEnrollment secret => exact ⟨h.nodup, h.unused, h.one, h.spent, h.codes, h.ok⟩
  | call i c =>
    simp only [System.step]
    cases htask : s.tasks[i]? with
    | none => exact h
    | some stage =>
      exact h.set htask (callOk_advance h.codes (h.ok stage (List.mem_of_getElem? htask)) (ha stage htask))
  | abandon i =>
    cases htask : s.tasks[i]? with
    | none =>
      have hset : s.tasks.set i .done = s.tasks := List.set_eq_of_length_le (List.getElem?_eq_none_iff.mp htask)
      simp only [System.step, hset]
      exact h
    | some stage => exact h.set htask (.plain h.codes rfl rfl rfl (.keep rfl (.inl rfl)) trivial)

end Steps

def Db.initial (creds : Option Credentials) (login : LoginState) : Db :=
  ⟨creds, login, (creds.getD .empty).recoveryCodes, []⟩

/-- Each time step and each recovery code has led to one session at most. -/
theorem factor_single_use (creds : Option Credentials) (login : LoginState)
    (hnodup : (creds.getD .empty).recoveryCodes.Nodup) (acts : List Action)
    (h : Each (System.step S cfg) Undisturbed ⟨.initial creds login, []⟩ acts) :
    Along (System.step S cfg) (fun s => s.db.sessions.Nodup) ⟨.initial creds login, []⟩ acts := by
  have hinitial : SingleUse ⟨.initial creds login, []⟩ := by
    refine ⟨List.nodup_nil, fun i f hf => (nomatch hf), fun i j f hf => (nomatch hf), fun f hf => ?_,
      ⟨hnodup, fun _ hcode => hcode⟩, fun st hst => absurd hst List.not_mem_nil⟩
    rcases hf with hf | ⟨i, hi⟩
    · exact absurd hf List.not_mem_nil
    · exact nomatch hi
  exact (along_of_each hinitial (fun s a => singleUse_step) h).mono fun s hs => hs.nodup

instance (db : Db) (c : Chance) : (stage : Stage) → Decidable (UndisturbedCall db c stage)
  | .useCode read _ => inferInstanceAs (Decidable (db.creds = some read))
  | .enroll _ _ _ _ => inferInstanceAs (Decidable (c.codes.Nodup ∧ ∀ code ∈ c.codes, code ∉ db.known))
  | .verifyLock _ | .verifyCreds _ | .verifyClaim _ | .confirmCreds _ | .confirmLock _ _ | .confirmSecret _ _
  | .confirmClaim _ _ _ _ | .clearSecret _ _ | .clearFailures _ | .insertSession _ | .fail | .done =>
    inferInstanceAs (Decidable True)

instance (s : System) : (a : Action) → Decidable (Undisturbed s a)
  | .call i c => inferInstanceAs (Decidable (∀ stage ∈ s.tasks[i]?, UndisturbedCall s.db c stage))
  | .verify _ | .confirm _ | .beginEnrollment _ | .abandon _ => inferInstanceAs (Decidable True)

def plainSecrets : Secrets := ⟨fun _ _ _ => some 5, some⟩

def twoCodes : Db := .initial (some ⟨"hash", "seed", true, ["one", "two"], 10⟩) ⟨0, 0, 0, ""⟩

def calls (i n : Nat) : List Action := List.replicate n (.call i ⟨100, []⟩)

theorem code_and_step_used :
    (run (System.step plainSecrets ⟨5, 900⟩) ⟨twoCodes, []⟩ (.verify ⟨"", "one"⟩ :: calls 0 5 ++
      .verify ⟨"123456", ""⟩ ::
      calls 1 5)).db.sessions = [.code "one", .step 5] ∧
    (run (System.step plainSecrets ⟨5, 900⟩) ⟨twoCodes, []⟩ (.verify ⟨"", "one"⟩ :: calls 0 5 ++
      .verify ⟨"123456", ""⟩ ::
      calls 1 5)).db.sessions.Nodup :=
  ⟨by decide, (factor_single_use _ _ (by decide) _ (by decide)).last⟩

/-- Two requests with the same recovery code, and both have read the credentials before one of them writes. -/
theorem recovery_code_used_twice :
    (run (System.step plainSecrets ⟨5, 900⟩) ⟨twoCodes, []⟩ (.verify ⟨"", "one"⟩ :: .verify ⟨"", "one"⟩ :: calls 0 2 ++
      calls 1 2 ++ calls 0 3 ++ calls 1 3)).db.sessions = [.code "one", .code "one"] := by
  decide

end Kcore.WebAuth
