import Kcore.Pki.Issue

/-!
# A signed rotation

`rotate_once` of a node together with the controller that signs for it, with file operations that do not fail. The
certificate of a node names the node's address, in the CN and as a SAN. When the address that the node has towards the
controller is not among the SANs, the CSR asks for a certificate for this address. What comes back is compared with the
CN of the certificate in use all the same, so that a node whose address changed asks for a new identity and refuses it.

`signNodeCsr_eq_ok` says what a controller signs, `obtainChain_eq_ok_iff` when a node accepts it, and `installed_iff`
when a signed chain is installed. Times are in nanoseconds.
-/

namespace Kcore.Pki.Renewal

open Checks

/-- `CertFacts`: what is read of the first certificate of a chain. An address among the SANs is given by its text. -/
structure CertFacts where
  serialHex : String
  subjectCn : String
  sans : List String
  notBefore : Int
  notAfter : Int
  publicKey : Nat

def day : Int := 86400000000000

def CertFacts.daysRemaining (cert : CertFacts) (now : Int) : Int := asI32 ((cert.notAfter - now).tdiv day)

/-! ### The controller -/

def stripNanos (t : Int) : Int := t - t % 1000000000

def sanText : San → Option String
  | .dnsName name => some name
  | .ipAddress text => some text
  | .other => none

/-- A controller that is asked: the address that the node is registered with, the clock, `cert_validity_days`, and the
serial of the next certificate. -/
structure Signer where
  lib : Rcgen
  subCa : SubCaState
  address : String
  clock : Int
  validityDays : Int
  serialHex : String

def Signer.notBefore (c : Signer) : Int := stripNanos c.clock

def Signer.notAfter (c : Signer) : Int := stripNanos (c.clock + c.validityDays * day)

/-- `sign_node_csr` for a CSR as the node made it: its text is read as what was written. -/
def Signer.signNodeCsr (c : Signer) (csr : Csr) : Except String CertFacts := do
  let leaf ← signCsr { c.lib with csrFromPem := fun _ => .ok csr } c.subCa "" (hostOf c.address)
  return ⟨c.serialHex, leaf.commonName, leaf.subjectAltNames.filterMap sanText, c.notBefore, c.notAfter, leaf.publicKey⟩

/-! ### The node -/

/-- `certRotation` of a node. Whether `remaining / lifetime` is below the configured fraction is found in floating-point
numbers. -/
structure RotationConfig where
  renewBeforeDays : Int
  belowFraction : Int → Int → Bool

def isDueForRenewal (rotation : RotationConfig) (notBefore notAfter now : Int) : Bool :=
  if notAfter ≤ now then true
  else if notAfter - now ≤ rotation.renewBeforeDays * day then true
  else if notAfter - notBefore ≤ 0 then true
  else rotation.belowFraction (notAfter - now) (notAfter - notBefore)

structure SignNodeCsrResponse where
  success : Bool
  certChain : Except String CertFacts
  message : String

inductive Reply where
  | unreachable (e : String)
  | status (e : String)
  | answer (response : SignNodeCsrResponse)

/-- What an attempt finds: the configured controller, what `ip -4 route get` prints for it, the endpoints with what they
reply, the clock with the text of a time, and the library, with whether it can write a CSR as PEM. -/
structure World where
  controllerAddr : String
  routeGet : String → Option String
  endpoints : List (String × (Csr → Reply))
  now : Int
  timeText : Int → String
  lib : Rcgen
  pem : Except String Unit

/-- `route_src`: the word after the first `src`. -/
def routeSrc : List String → Option String
  | "src" :: ip :: _ => if trim ip = "" ∨ startsWith (trim ip) "127." then none else some (trim ip)
  | _ :: words => routeSrc words
  | [] => none

def World.primaryIp (w : World) : Option String :=
  let target := trim (hostOf w.controllerAddr)
  if target = "" then none else (w.routeGet target).bind fun out => routeSrc (splitWhitespace out)

def certHostForRenewal (currentSans : List String) (primaryIp : String) : Option String :=
  if trim primaryIp = "" ∨ trim primaryIp ∈ currentSans then none else some (trim primaryIp)

def World.sanFix (w : World) (current : CertFacts) : Option String :=
  w.primaryIp.bind (certHostForRenewal current.sans)

def World.skips (w : World) (rotation : RotationConfig) (force : Bool) (current : CertFacts) : Bool :=
  (w.sanFix current).isNone && !force && !isDueForRenewal rotation current.notBefore current.notAfter w.now

def requested (current : CertFacts) : Option String → String × List String
  | some ip => (nodeCn ip, [ip])
  | none => (current.subjectCn, current.sans)

/-- A SAN of a CSR. An IPv4 address has one text; an IPv6 address is never the host of a node, whichever text it has. -/
def subjectAltName (lib : Rcgen) (san : String) : Except String San :=
  match parseIpAddr san with
  | some _ => .ok (.ipAddress san)
  | none => do
    orMessage (fun e => "invalid DNS SAN '" ++ san ++ "': " ++ e) (lib.dnsName san)
    return .dnsName san

/-- `build_csr`. The key that is generated is known by the public key in the CSR. -/
def buildCsr (lib : Rcgen) (pem : Except String Unit) (cn : String) (sans : List String) : Except String Csr := do
  let names ← sans.mapM (subjectAltName lib)
  let key ← orMessage ("generating keypair: " ++ ·) lib.generate
  orMessage ("serializing CSR: " ++ ·) lib.signed
  orMessage ("encoding CSR PEM: " ++ ·) pem
  return ⟨some cn, names, key⟩

def World.csr (w : World) (current : CertFacts) : Except String Csr :=
  buildCsr w.lib w.pem (requested current (w.sanFix current)).1 (requested current (w.sanFix current)).2

def askControllers (csr : Csr) : List (String × (Csr → Reply)) → String → Except String SignNodeCsrResponse
  | [], lastErr => .error (if lastErr = "" then "no controller endpoints configured" else lastErr)
  | (endpoint, reply) :: rest, _ =>
    match reply csr with
    | .unreachable e => askControllers csr rest ("connecting to " ++ endpoint ++ ": " ++ e)
    | .status e => askControllers csr rest ("SignNodeCsr on " ++ endpoint ++ ": " ++ e)
    | .answer response => .ok response

def validateSignedChain (timeText : Int → String) (chain : Except String CertFacts) (key : Nat) (expectedCn : String)
    (now : Int) : Except String CertFacts := do
  let facts ← chain
  if facts.subjectCn ≠ expectedCn then
    throw ("signed certificate CN '" ++ facts.subjectCn ++ "' does not match expected '" ++ expectedCn ++ "'")
  if facts.notAfter ≤ now then
    throw ("signed certificate already expired at " ++ timeText facts.notAfter)
  if facts.publicKey ≠ key then
    throw "signed certificate public key does not match the key we generated"
  return facts

/-- The part of `rotate_once` before a file is written: the chain and its key. -/
def World.obtainChain (w : World) (current : CertFacts) : Except String (CertFacts × Nat) := do
  let csr ← w.csr current
  let signed ← askControllers csr w.endpoints ""
  if signed.success = false then throw ("controller rejected the CSR: " ++ signed.message)
  -- The CN that is expected is the one in use, also if the CSR asks for another one.
  let facts ← validateSignedChain w.timeText signed.certChain csr.publicKey current.subjectCn w.now
  return (facts, csr.publicKey)

structure Disk where
  cert : CertFacts
  key : Nat

def verifyInstalled (disk : Disk) (expectedSerial : String) : Except String Unit := do
  if disk.cert.serialHex ≠ expectedSerial then
    throw ("installed certificate serial " ++ disk.cert.serialHex ++ " does not match the signed serial " ++
      expectedSerial)
  if disk.cert.publicKey ≠ disk.key then throw "installed certificate and private key do not match"

structure RotationOutcome where
  rotated : Bool
  skipped : Bool
  serialHex : String
  daysUntilExpiry : Int
  message : String

/-- `rotate_once` with file operations that succeed: what it returns, and what is on disk then. -/
def rotateOnce (rotation : RotationConfig) (w : World) (force : Bool) (disk : Disk) :
    Except String RotationOutcome × Disk :=
  if w.skips rotation force disk.cert then
    let days := disk.cert.daysRemaining w.now
    (.ok ⟨false, true, "", days, "certificate has " ++ toString days ++ " days left, outside the renewal window"⟩, disk)
  else
    match w.obtainChain disk.cert with
    | .error e => (.error e, disk)
    | .ok (facts, key) =>
      match verifyInstalled ⟨facts, key⟩ facts.serialHex with
      | .error e => (.error ("installed certificate failed verification: " ++ e), disk)
      | .ok _ => (.ok ⟨true, false, facts.serialHex, facts.daysRemaining w.now,
          "certificate rotated and listener reload requested"⟩, ⟨facts, key⟩)

/-! ### What is signed -/

variable {csr : Csr} {cn : String}

theorem commonName_of_checkCsr {host : String} {u : Unit} (h : checkCsr csr host = .ok u)
    (hcn : csr.commonName = some cn) : cn = nodeCn host := by
  unfold checkCsr at h
  rw [hcn] at h
  by_contra hne
  dsimp only at h
  rw [if_pos hne] at h
  cases h

theorem signNodeCsr_eq_ok {c : Signer} {cert : CertFacts} (hcn : csr.commonName = some cn)
    (h : c.signNodeCsr csr = .ok cert) :
    cert = ⟨c.serialHex, cn, [hostOf c.address], c.notBefore, c.notAfter, csr.publicKey⟩ ∧
      cn = nodeCn (hostOf c.address) := by
  obtain ⟨leaf, hleaf, h⟩ := bind_eq_ok.mp h
  obtain ⟨read, params, hread, hcheck, hparams, rfl⟩ := signCsr_eq_ok hleaf
  cases hread
  have hhost : cn = nodeCn (hostOf c.address) := commonName_of_checkCsr hcheck hcn
  cases h
  refine ⟨?_, hhost⟩
  rw [hhost]
  obtain rfl | rfl := nodeCertParams_eq_ok hparams <;> rfl

/-! ### What is accepted -/

theorem commonName_buildCsr {lib : Rcgen} {pem : Except String Unit} {sans : List String}
    (h : buildCsr lib pem cn sans = .ok csr) : csr.commonName = some cn := by
  obtain ⟨names, -, h⟩ := bind_eq_ok.mp h
  obtain ⟨key, -, h⟩ := bind_eq_ok.mp h
  obtain ⟨_, -, h⟩ := bind_eq_ok.mp h
  obtain ⟨_, -, h⟩ := bind_eq_ok.mp h
  cases h
  rfl

theorem validateSignedChain_eq_ok {timeText : Int → String} {cert facts : CertFacts} {key : Nat} {now : Int} :
    validateSignedChain timeText (.ok cert) key cn now = .ok facts ↔
      facts = cert ∧ cert.subjectCn = cn ∧ now < cert.notAfter ∧ cert.publicKey = key := by
  constructor
  · intro h
    obtain ⟨read, hread, h⟩ := bind_eq_ok.mp h
    cases hread
    obtain ⟨hcn, h⟩ := guard_eq_ok.mp h
    obtain ⟨hend, h⟩ := guard_eq_ok.mp h
    obtain ⟨hkey, h⟩ := guard_eq_ok.mp h
    cases h
    exact ⟨rfl, not_not.mp hcn, Int.not_le.mp hend, not_not.mp hkey⟩
  · rintro ⟨rfl, rfl, hend, rfl⟩
    have hlate : ¬ facts.notAfter ≤ now := Int.not_le.mpr hend
    simp [validateSignedChain, hlate, bind, Except.bind, pure, Except.pure]

section Attempt

variable {rotation : RotationConfig} {w next : World} {force : Bool} {disk : Disk} {c : Signer} {csr : Csr}
  {cert : CertFacts}

/-- The attempt is made with `csr`, and the answer that it gets is the chain that the controller signed for it. -/
structure Answered (rotation : RotationConfig) (w : World) (force : Bool) (current : CertFacts) (c : Signer) (csr : Csr)
    (cert : CertFacts) : Prop where
  attempted : w.skips rotation force current = false
  sent : w.csr current = .ok csr
  signed : c.signNodeCsr csr = .ok cert
  answered : ∃ message, askControllers csr w.endpoints "" = .ok ⟨true, .ok cert, message⟩

def Installed (cert : CertFacts) (result : Except String RotationOutcome × Disk) : Prop :=
  result.2 = ⟨cert, cert.publicKey⟩ ∧ ∃ outcome, result.1 = .ok outcome ∧ outcome.rotated = true

def Skipped (result : Except String RotationOutcome × Disk) : Prop :=
  ∃ outcome, result.1 = .ok outcome ∧ outcome.skipped = true

/-- The certificate in use has the CN of the address that the next one has to name. -/
def World.KeepsName (w : World) (current : CertFacts) : Prop := ∀ ip ∈ w.sanFix current, current.subjectCn = nodeCn ip

theorem Answered.cert_eq (h : Answered rotation w force disk.cert c csr cert) :
    cert = ⟨c.serialHex, (requested disk.cert (w.sanFix disk.cert)).1, [hostOf c.address], c.notBefore, c.notAfter,
        csr.publicKey⟩ ∧
      (requested disk.cert (w.sanFix disk.cert)).1 = nodeCn (hostOf c.address) :=
  signNodeCsr_eq_ok (commonName_buildCsr h.sent) h.signed

theorem keepsName_iff {w : World} {current : CertFacts} :
    w.KeepsName current ↔ (requested current (w.sanFix current)).1 = current.subjectCn := by
  unfold World.KeepsName
  cases w.sanFix current with
  | none => simp [requested]
  | some ip => simp [requested, eq_comm]

theorem obtainChain_eq_ok_iff (h : Answered rotation w force disk.cert c csr cert) {result : CertFacts × Nat} :
    w.obtainChain disk.cert = .ok result ↔
      result = (cert, csr.publicKey) ∧ w.KeepsName disk.cert ∧ w.now < c.notAfter := by
  obtain ⟨message, hanswer⟩ := h.answered
  obtain ⟨hcert, -⟩ := h.cert_eq
  have hvalid : ∀ facts, validateSignedChain w.timeText (.ok cert) csr.publicKey disk.cert.subjectCn w.now = .ok facts ↔
      facts = cert ∧ w.KeepsName disk.cert ∧ w.now < c.notAfter := by
    intro facts
    rw [validateSignedChain_eq_ok, keepsName_iff, hcert]
    simp
  constructor
  · intro hok
    obtain ⟨sent, hsent, hok⟩ := bind_eq_ok.mp hok
    cases hsent.symm.trans h.sent
    obtain ⟨response, hresponse, hok⟩ := bind_eq_ok.mp hok
    cases hresponse.symm.trans hanswer
    obtain ⟨-, hok⟩ := guard_eq_ok.mp hok
    obtain ⟨facts, hfacts, hok⟩ := bind_eq_ok.mp hok
    cases hok
    obtain ⟨rfl, hcond⟩ := (hvalid facts).mp hfacts
    exact ⟨rfl, hcond⟩
  · rintro ⟨rfl, hcond⟩
    have hfacts := (hvalid cert).mpr ⟨rfl, hcond⟩
    refine bind_eq_ok.mpr ⟨csr, h.sent, bind_eq_ok.mpr ⟨_, hanswer, ?_⟩⟩
    exact guard_eq_ok.mpr ⟨by simp, bind_eq_ok.mpr ⟨cert, hfacts, rfl⟩⟩

theorem installed_rotateOnce_iff (h : Answered rotation w force disk.cert c csr cert) :
    Installed cert (rotateOnce rotation w force disk) ↔ w.KeepsName disk.cert ∧ w.now < c.notAfter := by
  have hkey : cert.publicKey = csr.publicKey := by rw [h.cert_eq.1]
  have hverify : verifyInstalled ⟨cert, csr.publicKey⟩ cert.serialHex = .ok () := by
    simp [verifyInstalled, hkey, pure, Except.pure]
  unfold rotateOnce
  rw [if_neg (by simp [h.attempted])]
  constructor
  · rintro ⟨-, outcome, hok, -⟩
    cases hchain : w.obtainChain disk.cert with
    | error e =>
      rw [hchain] at hok
      cases hok
    | ok result => exact ((obtainChain_eq_ok_iff h).mp hchain).2
  · intro hcond
    rw [(obtainChain_eq_ok_iff h).mpr ⟨rfl, hcond⟩]
    dsimp only
    rw [hverify]
    exact ⟨by rw [hkey], _, rfl, rfl⟩

/-! ### After a change of address -/

theorem skipped_rotateOnce {w : World} {disk : Disk} (hfix : w.sanFix disk.cert = none)
    (hdue : isDueForRenewal rotation disk.cert.notBefore disk.cert.notAfter w.now = false) :
    Skipped (rotateOnce rotation w false disk) := by
  unfold rotateOnce
  rw [if_pos (by simp [World.skips, hfix, hdue])]
  exact ⟨_, rfl, rfl⟩

theorem not_due_of_skipped {w : World} {disk : Disk} (h : Skipped (rotateOnce rotation w false disk)) :
    isDueForRenewal rotation disk.cert.notBefore disk.cert.notAfter w.now = false := by
  obtain ⟨outcome, hok, hskipped⟩ := h
  by_cases hskip : w.skips rotation false disk.cert = true
  · unfold World.skips at hskip
    simp only [Bool.and_eq_true, Bool.not_eq_true'] at hskip
    exact hskip.2
  · unfold rotateOnce at hok
    rw [if_neg hskip] at hok
    split at hok
    · cases hok
    · split at hok
      · cases hok
      · cases hok
        cases hskipped

theorem nodeCn_injective {a b : String} (h : nodeCn a = nodeCn b) : a = b := by
  simpa [nodeCn] using h

/-- A certificate that was signed for the address of a node names it, so that the address is no reason for another
one. -/
theorem sanFix_of_answered (h : Answered rotation w force disk.cert c csr cert) {ip : String}
    (hfix : w.sanFix disk.cert = some ip) (hnext : next.primaryIp = w.primaryIp) :
    cert.subjectCn = nodeCn ip ∧ cert.sans = [ip] ∧ next.sanFix cert = none := by
  obtain ⟨hcert, hhost⟩ := h.cert_eq
  rw [hfix] at hcert hhost
  have hsans : cert.sans = [ip] := by
    rw [hcert, nodeCn_injective hhost]
  refine ⟨by rw [hcert]; rfl, hsans, ?_⟩
  unfold World.sanFix at hfix ⊢
  rw [hnext]
  obtain ⟨primary, hprimary, hip⟩ := Option.bind_eq_some_iff.mp hfix
  rw [hprimary, Option.bind_some]
  unfold certHostForRenewal at hip ⊢
  split_ifs at hip
  cases hip
  rw [if_pos (.inr (by simp [hsans]))]

/-- A rotation that was signed is installed, and brings a node whose address changed to its new identity for good,
exactly when the CN in use is already the one of the address, the new certificate has not ended by the clock of the
node, and, after a change, the next attempt comes before it is due. -/
theorem installed_iff (next : World) (h : Answered rotation w force disk.cert c csr cert)
    (hnext : next.primaryIp = w.primaryIp) :
    (Installed cert (rotateOnce rotation w force disk) ∧
      ∀ ip ∈ w.sanFix disk.cert, cert.subjectCn = nodeCn ip ∧ cert.sans = [ip] ∧
        Skipped (rotateOnce rotation next false (rotateOnce rotation w force disk).2)) ↔
      w.KeepsName disk.cert ∧ w.now < c.notAfter ∧
        ((w.sanFix disk.cert).isSome → isDueForRenewal rotation c.notBefore c.notAfter next.now = false) := by
  have htimes : cert.notBefore = c.notBefore ∧ cert.notAfter = c.notAfter := by
    rw [h.cert_eq.1]
    exact ⟨rfl, rfl⟩
  rw [installed_rotateOnce_iff h, and_assoc]
  refine and_congr_right fun hname => and_congr_right fun hend => ?_
  have hdisk : (rotateOnce rotation w force disk).2 = ⟨cert, cert.publicKey⟩ :=
    ((installed_rotateOnce_iff h).mpr ⟨hname, hend⟩).1
  rw [hdisk, ← htimes.1, ← htimes.2]
  constructor
  · intro hmoved hsome
    obtain ⟨ip, hfix⟩ := Option.isSome_iff_exists.mp hsome
    exact not_due_of_skipped (hmoved ip hfix).2.2
  · intro hdue ip hfix
    obtain ⟨hcn, hsans, hnone⟩ := sanFix_of_answered h hfix hnext
    exact ⟨hcn, hsans, skipped_rotateOnce hnone (hdue (by rw [hfix]; rfl))⟩

end Attempt

/-! ### A node that moved -/

def willing : Rcgen := ⟨fun _ => .error "", fun _ => .ok (), fun _ => .ok (), fun _ => .ok (), .ok 5, .ok ()⟩

def yearSigner : Signer := ⟨willing, ⟨"sub-ca", "key"⟩, "10.0.0.8:9091", 100 * day, 365, "0B"⟩

def yearCert : CertFacts := ⟨"0B", "kcore-node-10.0.0.8", ["10.0.0.8"], 100 * day, 465 * day, 5⟩

def atEight (now : Int) : World :=
  ⟨"10.0.0.1:9090", fun _ => some "10.0.0.1 dev br0 src 10.0.0.8 uid 0",
    [("https://10.0.0.1:9090", fun _ => .answer ⟨true, .ok yearCert, "certificate issued for node 'node-a'"⟩)], now,
    fun _ => "", willing, .ok ()⟩

def monthly : RotationConfig := ⟨30, fun remaining lifetime => 3 * remaining < lifetime⟩

def bareDisk : Disk := ⟨⟨"0A", "kcore-node-10.0.0.8", [], 0, 300 * day, 4⟩, 4⟩

def movedDisk : Disk := ⟨⟨"0A", "kcore-node-10.0.0.7", ["10.0.0.7"], 0, 300 * day, 4⟩, 4⟩

theorem bare_certificate_replaced :
    (∃ csr, Answered monthly (atEight (100 * day)) false bareDisk.cert yearSigner csr yearCert) ∧
      Installed yearCert (rotateOnce monthly (atEight (100 * day)) false bareDisk) ∧
      Skipped (rotateOnce monthly (atEight (101 * day)) false
        (rotateOnce monthly (atEight (100 * day)) false bareDisk).2) := by
  have h : Answered monthly (atEight (100 * day)) false bareDisk.cert yearSigner
      ⟨some "kcore-node-10.0.0.8", [.ipAddress "10.0.0.8"], 5⟩ yearCert :=
    ⟨by decide, by rfl, by rfl, _, rfl⟩
  obtain ⟨hinstalled, hmoved⟩ := (installed_iff (atEight (101 * day)) h rfl).mpr
    ⟨keepsName_iff.mpr (by decide), by decide, fun _ => by decide⟩
  exact ⟨⟨_, h⟩, hinstalled, (hmoved "10.0.0.8" (by decide)).2.2⟩

/-- The controller knows the new address and signs for it, and the node refuses what it asked for. -/
theorem moved_node_refuses :
    (∃ csr, Answered monthly (atEight (100 * day)) false movedDisk.cert yearSigner csr yearCert) ∧
      rotateOnce monthly (atEight (100 * day)) false movedDisk =
        (.error "signed certificate CN 'kcore-node-10.0.0.8' does not match expected 'kcore-node-10.0.0.7'",
          movedDisk) := by
  refine ⟨⟨⟨some "kcore-node-10.0.0.8", [.ipAddress "10.0.0.8"], 5⟩, ?_⟩, ?_⟩
  · exact ⟨by decide, by rfl, by rfl, _, rfl⟩
  · rfl

end Kcore.Pki.Renewal
