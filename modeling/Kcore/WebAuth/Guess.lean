import Kcore.WebAuth.Factor

/-!
# The guess budget

The requests that compare a password or a code with a stored secret of one operator: `Login`, `ChangePassword`,
`VerifySecondFactor` and `ConfirmTotpEnrollment`, one call at a time. Each looks at the lock first, then compares, and
counts a failure last. `guesses` is the number of wrong passwords and codes that were compared outside of lock periods
since the last lock, sign-in or reset.

A request that has passed the lock and may still fail is in flight. Failures that are counted and requests in flight
together bound the guesses (`Budget`), so the budget holds as long as the lock is passed only while there is room for
one more, and no client goes away while its wrong password is compared, which then is never counted.
-/

namespace Kcore.WebAuth.Guess

open Machine

structure Passwords where
  verifyPassword : (password hash : String) → Bool
  checkPolicy : String → Bool
  hashPassword : String → String

def Passwords.checkPassword (P : Passwords) (password stored : String) : Bool :=
  stored ≠ "" && P.verifyPassword password stored

/-- The next call of a request, with what it has read. `compare` waits for `check_password`; with a new password it is
of `ChangePassword`. -/
inductive Attempt where
  | factor (stage : Stage)
  | loginLock (password : String)
  | loginCreds (password : String)
  | changeLock (current new : String)
  | changeCreds (current new : String)
  | compare (password : String) (read : Credentials) (new : Option String)
  | writePassword (read : Credentials) (new : String)

def Attempt.atLock : Attempt → Bool
  | .factor (.verifyLock _) | .factor (.confirmLock _ _) | .loginLock _ | .changeLock _ _ => true
  | _ => false

def Attempt.inFlight : Attempt → Bool
  | .factor (.verifyCreds _) | .factor (.verifyClaim _) | .factor (.confirmSecret _ _)
  | .factor (.confirmClaim _ _ _ _) | .factor .fail | .loginCreds _ | .changeCreds _ _ | .compare _ _ _ => true
  | _ => false

def Attempt.recording : Attempt → Bool
  | .factor .fail => true
  | _ => false

variable (S : Secrets) (P : Passwords) (cfg : WebConfig)

def Attempt.advance (c : Chance) (db : Db) : Attempt → Attempt × Db
  | .factor stage =>
    let next := WebAuth.advance S cfg c db stage
    (.factor next.1, next.2)
  | .loginLock password => (if c.now < db.login.lockedUntil then .factor .done else .loginCreds password, db)
  | .loginCreds password => (.compare password db.credentials none, db)
  | .changeLock current new =>
    (if c.now < db.login.lockedUntil then .factor .done
      else if P.checkPolicy new then .changeCreds current new else .factor .done, db)
  | .changeCreds current new => (.compare current db.credentials (some new), db)
  | .compare password read new =>
    (if P.checkPassword password read.passwordHash then
        match new with
        | none => .factor .done
        | some new => .writePassword read new
      else .factor .fail, db)
  | .writePassword read new =>
    (.factor .done, { db with creds := upsert db.creds ((Change.setPassword (P.hashPassword new)).apply c.now read) })

/-- The guesses after a call that leads to `next`. A lock and a sign-in start the count again. -/
def guessesAfter (c : Chance) (db : Db) (guesses : Nat) (next : Attempt) : Attempt → Nat
  | .factor .fail => if cfg.maxFailedLogins ≤ db.login.failedAttempts + 1 then 0 else guesses
  | .factor (.clearFailures _) => 0
  | .factor (.verifyCreds _) | .factor (.confirmSecret _ _) | .compare _ _ _ =>
    if next.recording = true ∧ db.login.lockedUntil ≤ c.now then guesses + 1 else guesses
  | _ => guesses

structure System where
  db : Db
  tasks : List Attempt
  guesses : Nat

/-- Besides the four requests: another controller or request writes the credentials, an administrator sets them and
clears the failures, and a client goes away while its request waits. -/
inductive Action where
  | login (password : String)
  | changePassword (current new : String)
  | verify (r : Verify)
  | confirm (r : Confirm)
  | beginEnrollment (secret : String)
  | write (creds : Option Credentials)
  | reset (creds : Option Credentials)
  | call (i : Nat) (c : Chance)
  | hangUp (i : Nat) (c : Chance)

/-- A wrong password is still compared when its client has gone; nothing counts the failure. -/
def System.hangUp (s : System) (i : Nat) (c : Chance) : Attempt → System
  | .compare password read new =>
    let next := (Attempt.advance S P cfg c s.db (.compare password read new)).1
    ⟨s.db, s.tasks.set i (.factor .done), guessesAfter cfg c s.db s.guesses next (.compare password read new)⟩
  | .writePassword _ _ => { s with tasks := s.tasks.set i (.factor .done) }
  | _ => s

def System.step (s : System) : Action → System
  | .login password => { s with tasks := s.tasks ++ [.loginLock password] }
  | .changePassword current new => { s with tasks := s.tasks ++ [.changeLock current new] }
  | .verify r => { s with tasks := s.tasks ++ [.factor (.verifyLock r)] }
  | .confirm r => { s with tasks := s.tasks ++ [.factor (.confirmCreds r)] }
  | .beginEnrollment secret =>
    { s with db := { s.db with login := { s.db.login with pendingTotpSecret := secret } } }
  | .write creds => { s with db := { s.db with creds } }
  | .reset creds =>
    { s with
      db := { s.db with creds, login := { s.db.login with failedAttempts := 0, lockedUntil := 0 } }
      guesses := 0 }
  | .call i c =>
    match s.tasks[i]? with
    | none => s
    | some a =>
      let next := a.advance S P cfg c s.db
      ⟨next.2, s.tasks.set i next.1, guessesAfter cfg c s.db s.guesses next.1 a⟩
  | .hangUp i c =>
    match s.tasks[i]? with
    | none => s
    | some a => s.hangUp S P cfg i c a

def System.WithinBudget (s : System) : Prop := (s.guesses : Int) ≤ cfg.maxFailedLogins

/-- If the request passes the lock, there is room for one more failure. -/
def System.HasRoom (s : System) (c : Chance) (a : Attempt) : Prop :=
  a.atLock = true → s.db.login.lockedUntil ≤ c.now →
    s.db.login.failedAttempts + s.tasks.countP Attempt.inFlight < cfg.maxFailedLogins

def Attempt.NotWrong : Attempt → Prop
  | .compare password read _ => P.checkPassword password read.passwordHash = true
  | _ => True

/-- Requests pass the lock while there is room, and no client goes away from a wrong password. -/
def Roomy (s : System) : Action → Prop
  | .call i c => ∀ a ∈ s.tasks[i]?, s.HasRoom cfg c a
  | .hangUp i _ => ∀ a ∈ s.tasks[i]?, a.NotWrong P
  | _ => True

instance (s : System) (c : Chance) (a : Attempt) : Decidable (s.HasRoom cfg c a) :=
  inferInstanceAs (Decidable (_ → _ → _))

instance : DecidablePred (Attempt.NotWrong P)
  | .compare password read _ => inferInstanceAs (Decidable (P.checkPassword password read.passwordHash = true))
  | .factor _ | .loginLock _ | .loginCreds _ | .changeLock _ _ | .changeCreds _ _ | .writePassword _ _ => isTrue trivial

instance (s : System) : DecidablePred (Roomy P cfg s)
  | .call i c => inferInstanceAs (Decidable (∀ a ∈ s.tasks[i]?, s.HasRoom cfg c a))
  | .hangUp i _ => inferInstanceAs (Decidable (∀ a ∈ s.tasks[i]?, a.NotWrong P))
  | .login _ | .changePassword _ _ | .verify _ | .confirm _ | .beginEnrollment _ | .write _ | .reset _ => isTrue trivial

structure System.Started (s : System) : Prop where
  tasks : s.tasks = []
  guesses : s.guesses = 0
  failures : 0 ≤ s.db.login.failedAttempts

/-- What keeps the guesses within the budget: each is counted or about to be, and there is room for all in flight. -/
structure Budget (s : System) : Prop where
  failures : 0 ≤ s.db.login.failedAttempts
  counted : (s.guesses : Int) ≤ s.db.login.failedAttempts + s.tasks.countP Attempt.recording
  room : 0 < s.tasks.countP Attempt.inFlight →
    s.db.login.failedAttempts + s.tasks.countP Attempt.inFlight ≤ cfg.maxFailedLogins
  within : s.WithinBudget cfg

/-! ### One call -/

/-- What a call does to the failures and guesses, where `a` is the request and `a'` what it becomes. -/
structure Effect (c : Chance) (db db' : Db) (guesses guesses' : Nat) (a a' : Attempt) : Prop where
  failures : 0 ≤ db.login.failedAttempts → 0 ≤ db'.login.failedAttempts
  recording : a'.recording = true → a.inFlight = true ∧ a'.inFlight = true ∧ a.recording = false
  leaves : a.recording = true → a'.inFlight = false
  passes : a.inFlight = false → a'.inFlight = true → a.atLock = true ∧ db.login.lockedUntil ≤ c.now
  counts : (db'.login.failedAttempts = db.login.failedAttempts + a.recording.toNat ∧
      guesses' ≤ guesses + a'.recording.toNat) ∨ (db'.login.failedAttempts = 0 ∧ guesses' = 0)

section

variable {S P cfg} {c : Chance} {db db' : Db} {g g' : Nat} {a a' : Attempt}

private theorem inFlight_of_recording (h : a.recording = true) : a.inFlight = true := by
  unfold Attempt.recording at h
  split at h
  · rfl
  · cases h

private theorem Effect.quiet (hdb : db'.login.failedAttempts = db.login.failedAttempts) (ha : a.recording = false)
    (ha' : a'.recording = false)
    (hpasses : a.inFlight = false → a'.inFlight = true → a.atLock = true ∧ db.login.lockedUntil ≤ c.now) :
    Effect c db db' g g a a' where
  failures h := hdb ▸ h
  recording h := absurd (ha'.symm.trans h) Bool.false_ne_true
  leaves h := absurd (ha.symm.trans h) Bool.false_ne_true
  passes := hpasses
  counts := .inl ⟨by rw [hdb, ha]; simp, Nat.le_add_right _ _⟩

private theorem Effect.compared (ha : a.inFlight = true) (hnot : a.recording = false)
    (hg : g' ≤ g + a'.recording.toNat) : Effect c db db g g' a a' where
  failures := id
  recording h := ⟨ha, inFlight_of_recording h, hnot⟩
  leaves h := absurd (hnot.symm.trans h) Bool.false_ne_true
  passes h := absurd (h.symm.trans ha) Bool.false_ne_true
  counts := .inl ⟨by rw [hnot]; simp, hg⟩

private theorem guess_le (q : Prop) [Decidable q] :
    (if a'.recording = true ∧ q then g + 1 else g) ≤ g + a'.recording.toNat := by
  cases a'.recording with
  | false => simp
  | true =>
    simp only [true_and, Bool.toNat_true]
    split <;> omega

private theorem of_inFlight {q : Prop} (ha : a.inFlight = true) (h : a.inFlight = false) : q :=
  absurd (h.symm.trans ha) Bool.false_ne_true

private theorem of_not_inFlight {q : Prop} (ha : a.inFlight = false) (h : a.inFlight = true) : q :=
  absurd (ha.symm.trans h) Bool.false_ne_true

private theorem Effect.lock (hlock : a.atLock = true) (ha : a.recording = false) (hnext : a'.recording = false)
    (hgo : a'.inFlight = true → ¬c.now < db.login.lockedUntil) : Effect c db db g g a a' :=
  .quiet rfl ha hnext fun _ h => ⟨hlock, Int.not_lt.mp (hgo h)⟩

private theorem failedAttempts_claimTotpStep {step : Int} (h : db.claimTotpStep step = some db') :
    db'.login.failedAttempts = db.login.failedAttempts := by
  unfold Db.claimTotpStep at h
  split at h
  · cases h
    rfl
  · cases h

private theorem failedAttempts_recordLoginFailure (now : Int) : (db.recordLoginFailure cfg now).login.failedAttempts =
    if cfg.maxFailedLogins ≤ db.login.failedAttempts + 1 then 0 else db.login.failedAttempts + 1 := by
  simp only [Db.recordLoginFailure]
  split <;> rfl

private theorem effect_fail : Effect c db (db.recordLoginFailure cfg c.now) g
    (guessesAfter cfg c db g (.factor .done) (.factor .fail)) (.factor .fail) (.factor .done) where
  failures h := by
    rw [failedAttempts_recordLoginFailure]
    split <;> omega
  recording h := nomatch h
  leaves _ := rfl
  passes h := nomatch h
  counts := by
    rw [failedAttempts_recordLoginFailure, guessesAfter]
    by_cases hlock : cfg.maxFailedLogins ≤ db.login.failedAttempts + 1
    · rw [if_pos hlock, if_pos hlock]
      exact .inr ⟨rfl, rfl⟩
    · rw [if_neg hlock, if_neg hlock]
      exact .inl ⟨rfl, Nat.le_add_right _ _⟩

private theorem effect_advance (c : Chance) (db : Db) (g : Nat) (a : Attempt) :
    Effect c db (a.advance S P cfg c db).2 g (guessesAfter cfg c db g (a.advance S P cfg c db).1 a) a
      (a.advance S P cfg c db).1 := by
  cases a with
  | factor stage =>
    cases stage with
    | verifyLock | confirmLock =>
      simp only [Attempt.advance, WebAuth.advance]
      split <;> exact .lock rfl rfl rfl (by simp_all [Attempt.inFlight])
    | verifyCreds | confirmSecret => exact .compared rfl rfl (guess_le _)
    | verifyClaim step | confirmClaim _ _ _ step =>
      simp only [Attempt.advance, WebAuth.advance]
      cases h : db.claimTotpStep step with
      | none => exact .compared rfl rfl (Nat.le_add_right _ _)
      | some db' => exact .quiet (failedAttempts_claimTotpStep h) rfl rfl (of_inFlight rfl)
    | confirmCreds | clearSecret =>
      simp only [Attempt.advance, WebAuth.advance]
      split <;> exact .quiet rfl rfl rfl fun _ => of_not_inFlight rfl
    | clearFailures f =>
      exact ⟨fun _ => Int.le_refl 0, fun h => absurd h Bool.false_ne_true, fun _ => rfl, fun _ => of_not_inFlight rfl,
        .inr ⟨rfl, rfl⟩⟩
    | fail => exact effect_fail
    | useCode | enroll | insertSession | done => exact .quiet rfl rfl rfl fun _ => of_not_inFlight rfl
  | loginLock password =>
    simp only [Attempt.advance]
    split <;> exact .lock rfl rfl rfl (by simp_all [Attempt.inFlight])
  | changeLock current new =>
    simp only [Attempt.advance]
    split
    · exact .lock rfl rfl rfl (of_not_inFlight rfl)
    · split
      · exact .lock rfl rfl rfl (fun _ => ‹_›)
      · exact .lock rfl rfl rfl (of_not_inFlight rfl)
  | loginCreds | changeCreds => exact .quiet rfl rfl rfl (of_inFlight rfl)
  | compare password read new => exact .compared rfl rfl (guess_le _)
  | writePassword => exact .quiet rfl rfl rfl fun _ => of_not_inFlight rfl

/-! ### Runs -/

private theorem countP_middle (p : Attempt → Bool) (before after : List Attempt) (a : Attempt) :
    (before ++ a :: after).countP p = before.countP p + after.countP p + (p a).toNat := by
  rw [List.countP_append, List.countP_cons]
  cases p a with
  | false => simp
  | true =>
    simp only [if_true, Bool.toNat_true]
    omega

private theorem Budget.call {s : System} {i : Nat} (h : Budget cfg s) (ha : s.tasks[i]? = some a)
    (hroom : s.HasRoom cfg c a) (heffect : Effect c s.db db' s.guesses g' a a') :
    Budget cfg ⟨db', s.tasks.set i a', g'⟩ := by
  obtain ⟨hi, hget⟩ := List.getElem?_eq_some_iff.mp ha
  obtain ⟨before, after, htasks, -, hset⟩ : ∃ before after, s.tasks = before ++ a :: after ∧ before.length = i ∧
      s.tasks.set i a' = before ++ a' :: after := hget ▸ List.exists_of_set hi
  have hothers : before.countP Attempt.recording + after.countP Attempt.recording ≤
      before.countP Attempt.inFlight + after.countP Attempt.inFlight :=
    Nat.add_le_add (List.countP_mono_left fun _ _ => inFlight_of_recording)
      (List.countP_mono_left fun _ _ => inFlight_of_recording)
  obtain ⟨hfailures, hrecording, hleaves, hpasses, hcounts⟩ := heffect
  have hfail := hfailures h.failures
  have hself : a.recording.toNat ≤ a.inFlight.toNat := by
    cases hr : a.recording with
    | false => exact Nat.zero_le _
    | true => rw [inFlight_of_recording hr]
  have hnext : a'.recording.toNat = 0 ∨
      a'.recording.toNat = 1 ∧ a.inFlight.toNat = 1 ∧ a'.inFlight.toNat = 1 ∧ a.recording.toNat = 0 := by
    cases hr : a'.recording with
    | false => exact .inl rfl
    | true =>
      obtain ⟨hin, hin', hnot⟩ := hrecording hr
      exact .inr ⟨rfl, by rw [hin]; rfl, by rw [hin']; rfl, by rw [hnot]; rfl⟩
  have hnonneg := h.failures
  have hcounted := h.counted
  have hin := h.room
  have hwithin := h.within
  unfold System.WithinBudget at hwithin
  unfold System.HasRoom at hroom
  rw [htasks, countP_middle] at hcounted hin hroom
  have hpass : a.inFlight.toNat = 0 → a'.inFlight.toNat = 1 → s.db.login.failedAttempts +
      (before.countP Attempt.inFlight + after.countP Attempt.inFlight : Nat) < cfg.maxFailedLogins := by
    intro hzero hone
    have hpassed := hpasses (Bool.toNat_eq_zero.mp hzero) (Bool.toNat_eq_one.mp hone)
    have := hroom hpassed.1 hpassed.2
    omega
  have hgone : a.recording.toNat = 0 ∨ a'.inFlight.toNat = 0 := by
    cases hr : a.recording with
    | false => exact .inl rfl
    | true => exact .inr (Bool.toNat_eq_zero.mpr (hleaves hr))
  have hlt := Bool.toNat_le a.inFlight
  have hlt' := Bool.toNat_le a'.inFlight
  refine ⟨hfail, ?_, ?_, ?_⟩
  · simp only [hset, countP_middle]
    omega
  · simp only [hset, countP_middle]
    omega
  · unfold System.WithinBudget
    dsimp only
    omega

private theorem budget_step (hmax : 1 ≤ cfg.maxFailedLogins) (s : System) (act : Action) (h : Budget cfg s)
    (hroomy : Roomy P cfg s act) : Budget cfg (s.step S P cfg act) := by
  have hstart : ∀ a : Attempt, a.inFlight = false → Budget cfg { s with tasks := s.tasks ++ [a] } := by
    intro a ha
    have hrecording : a.recording = false := by
      by_contra hne
      have htrue := inFlight_of_recording (Bool.not_eq_false _ ▸ hne)
      exact Bool.false_ne_true (ha.symm.trans htrue)
    refine ⟨h.failures, ?_, ?_, h.within⟩
    · simpa [List.countP_append, hrecording] using h.counted
    · simpa [List.countP_append, ha] using h.room
  cases act with
  | login | changePassword | verify | confirm => exact hstart _ rfl
  | beginEnrollment | write => exact ⟨h.failures, h.counted, h.room, h.within⟩
  | reset creds =>
    refine ⟨Int.le_refl 0, ?_, ?_, ?_⟩
    · simp [System.step]
    · intro hpos
      have hroom := h.room hpos
      have hfailures := h.failures
      simp only [System.step]
      omega
    · simp only [System.step, System.WithinBudget]
      omega
  | call i c =>
    simp only [System.step]
    cases ha : s.tasks[i]? with
    | none => exact h
    | some a => exact h.call ha (hroomy a ha) (effect_advance c s.db s.guesses a)
  | hangUp i c =>
    simp only [System.step]
    cases ha : s.tasks[i]? with
    | none => exact h
    | some a =>
      cases a with
      | compare password read new =>
        have hright : P.checkPassword password read.passwordHash = true := hroomy _ ha
        have hquiet : guessesAfter cfg c s.db s.guesses
            (Attempt.advance S P cfg c s.db (.compare password read new)).1 (.compare password read new) =
              s.guesses := by
          simp only [guessesAfter, Attempt.advance, hright, if_true]
          cases new <;> rfl
        have hleaves : Effect c s.db s.db s.guesses s.guesses (.compare password read new) (.factor .done) :=
          .quiet rfl rfl rfl (fun h => nomatch h)
        simpa only [System.hangUp, hquiet] using h.call ha (fun h => nomatch h) hleaves
      | writePassword read new =>
        have hleaves : Effect c s.db s.db s.guesses s.guesses (.writePassword read new) (.factor .done) :=
          .quiet rfl rfl rfl (fun _ h => nomatch h)
        exact h.call ha (fun h => nomatch h) hleaves
      | factor | loginLock | loginCreds | changeLock | changeCreds => exact h

end

/-- The budget is kept along every run of a controller in which each request that passes the lock has room. -/
theorem budget_kept (hmax : 1 ≤ cfg.maxFailedLogins) {s : System} (hs : s.Started) {acts : List Action}
    (h : Each (System.step S P cfg) (Roomy P cfg) s acts) :
    Along (System.step S P cfg) (System.WithinBudget cfg) s acts := by
  have hbudget : Budget cfg s := by
    refine ⟨hs.failures, ?_, fun hpos => ?_, ?_⟩
    · rw [hs.guesses, hs.tasks]
      simpa using hs.failures
    · rw [hs.tasks] at hpos
      cases hpos
    · rw [System.WithinBudget, hs.guesses]
      omega
  exact (along_of_each hbudget (fun s act => budget_step hmax s act) h).mono fun _ hb => hb.within

/-! ### Runs of a controller with a budget of two -/

def plainSecrets : Secrets := ⟨fun _ _ _ => none, fun _ => none⟩

def plainPasswords : Passwords := ⟨fun password hash => password == hash, fun _ => true, id⟩

def twoAttempts : WebConfig := ⟨2, 900⟩

def started : System := ⟨⟨some ⟨"correct horse", "", false, [], 0⟩, ⟨0, 0, 0, ""⟩, [], []⟩, [], 0⟩

def wrongLogin (i : Nat) : List Action := .login "guess" :: List.replicate 4 (.call i ⟨1000, []⟩)

theorem wrong_logins_in_turn_within :
    Along (System.step plainSecrets plainPasswords twoAttempts) (System.WithinBudget twoAttempts) started
      (wrongLogin 0 ++ wrongLogin 1 ++ wrongLogin 2) :=
  budget_kept plainSecrets plainPasswords twoAttempts (by decide) ⟨rfl, rfl, by decide⟩
    (by decide)

def loginsAtOnce : List Action :=
  List.replicate 3 (.login "guess") ++ (List.replicate 3 [0, 1, 2]).flatten.map (.call · ⟨1000, []⟩)

theorem logins_at_once_exceed : ¬(run (System.step plainSecrets plainPasswords twoAttempts) started
    loginsAtOnce).WithinBudget twoAttempts := by
  unfold System.WithinBudget
  decide

end Kcore.WebAuth.Guess
