import Kcore.Text

/-!
# The credentials of an operator

The record `operator_credentials` of one operator: the hash of the password, the seed of the TOTP codes and the hashes
of the recovery codes that are left. Every handler reads the whole record, changes its part of it and writes the whole
record back. The write takes effect if the stored record does not have a later time.
-/

namespace Kcore.WebAuth

structure Credentials where
  passwordHash : String
  totpSecret : String
  totpEnabled : Bool
  recoveryCodes : List String
  updatedAt : Int
  deriving DecidableEq

def Credentials.empty : Credentials := ⟨"", "", false, [], 0⟩

/-- `upsert_operator_credentials`. -/
def upsert (stored : Option Credentials) (creds : Credentials) : Option Credentials :=
  match stored with
  | none => some creds
  | some old => if old.updatedAt ≤ creds.updatedAt then some creds else some old

inductive Change where
  | setPassword (hash : String)
  | enroll (secret : String) (codes : List String)
  | resetFactor
  | useCode (code : String)

/-- The record that a request writes, from the one that it has read. Its time is `now().max(updated_at + 1)`. -/
def Change.apply (now : Int) (read : Credentials) (change : Change) : Credentials :=
  let updatedAt := if read.updatedAt + 1 ≤ now then now else read.updatedAt + 1
  match change with
  | .setPassword hash => { read with passwordHash := hash, updatedAt }
  | .enroll secret codes => { read with totpSecret := secret, totpEnabled := true, recoveryCodes := codes, updatedAt }
  | .resetFactor => { read with totpSecret := "", totpEnabled := false, recoveryCodes := [], updatedAt }
  | .useCode code => { read with recoveryCodes := read.recoveryCodes.erase code, updatedAt }

theorem updatedAt_apply (now : Int) (read : Credentials) (change : Change) :
    read.updatedAt < (change.apply now read).updatedAt := by
  have htime : read.updatedAt < if read.updatedAt + 1 ≤ now then now else read.updatedAt + 1 := by
    split <;> omega
  cases change <;> exact htime

end Kcore.WebAuth
