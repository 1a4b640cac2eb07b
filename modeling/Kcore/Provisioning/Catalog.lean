import Kcore.Net.Ipv4
import Kcore.Lib.Checks

/-!
# The catalog of the provisioner

Networks, reservations and DNS records, and the checks that a catalog has to pass before it is stored.
-/

namespace Kcore.Provisioning

open Checks (check)

structure AddressPool where
  start : String
  stop : String
  deriving DecidableEq

structure Network where
  name : String
  interface : String
  cidr : String
  gateway : String
  domain : String
  dnsServers : List String
  pools : List AddressPool
  dhcpEnabled : Bool
  validLifetime : Nat
  nextServer : String
  bootFileName : String
  deriving DecidableEq

structure Reservation where
  network : String
  macAddress : String
  ipAddress : String
  hostname : String
  deriving DecidableEq

structure DnsRecord where
  zone : String
  name : String
  rrtype : String
  content : String
  ttl : Nat
  deriving DecidableEq

structure Catalog where
  upstream : List String
  authoritative : String
  networks : List Network
  reservations : List Reservation
  records : List DnsRecord
  deriving DecidableEq

/-! ### Addresses -/

def trimDots (s : String) : String := String.ofList (s.toList.reverse.dropWhile (· = '.')).reverse

def parseAddress (text : String) : Except String Nat :=
  let text := trimDots (trim text)
  match parseIpv4 text with
  | some (a, b, c, d) => .ok (((a * 256 + b) * 256 + c) * 256 + d)
  | none => .error ("invalid ipv4 address " ++ text)

structure Ipv4Net where
  addr : Nat
  bits : Nat

def masked (ip bits : Nat) : Nat := ip >>> (32 - bits) <<< (32 - bits)

def Ipv4Net.contains (net : Ipv4Net) (ip : Nat) : Bool := masked ip net.bits = masked net.addr net.bits

def Ipv4Net.overlaps (net other : Ipv4Net) : Bool :=
  let bits := min net.bits other.bits
  masked net.addr bits = masked other.addr bits

def parseCidr (text : String) : Except String Ipv4Net :=
  match splitOnce (trim text) '/' with
  | none => .error ("cidr " ++ text ++ " needs a prefix")
  | some (addr, bits) => do
    let addr ← parseAddress addr
    match parseU8 bits with
    | none => .error ("cidr prefix in " ++ text ++ " is invalid")
    | some bits =>
      if 32 < bits then .error ("cidr prefix " ++ toString bits ++ " is above 32") else .ok ⟨masked addr bits, bits⟩

def parseHostPort (text : String) : Except String (String × Nat) :=
  match rsplitOnce text ':' with
  | none => .error (text ++ " is not host:port")
  | some (host, port) =>
    match parseU16 port with
    | none => .error ("port in " ++ text ++ " is invalid")
    | some port => if host = "" then .error (text ++ " is missing a host") else .ok (host, port)

/-! ### Names -/

def isHexDigit (c : Char) : Bool := c.isDigit || ('a' ≤ c && c ≤ 'f') || ('A' ≤ c && c ≤ 'F')

def withColons : List Char → List Char
  | a :: b :: c :: rest => a :: b :: ':' :: withColons (c :: rest)
  | digits => digits

def normalizeMac (text : String) : Except String String :=
  let hex := (text.toList.filter isHexDigit).map Char.toLower
  if hex.length ≠ 12 then .error ("mac " ++ text ++ " is invalid") else .ok (String.ofList (withColons hex))

/-- The letters and digits of a label, with one dash for each gap after the first; the last part says that a dash was
put. -/
def labelChars : List Char → List Char → Bool → List Char
  | [], out, _ => out
  | c :: cs, out, dash =>
    if c.isAlphanum then labelChars cs (out ++ [c.toLower]) false
    else if !dash && out ≠ [] then labelChars cs (out ++ ['-']) true
    else labelChars cs out dash

def dnsLabel (raw : String) : Option String :=
  let raw := trim raw
  if raw = "" then none
  else
    let source := if (splitWhitespace raw)[1]?.isSome then (splitWhitespace raw).head?.getD raw else raw
    let out := ((labelChars source.toList [] false).reverse.dropWhile (· = '-')).reverse
    if out = [] || 63 < out.length || out.head? = some '-' then none else some (String.ofList out)

def isDomain (text : String) : Bool :=
  let text := trimDots (trim text)
  text ≠ "" && text.utf8ByteSize ≤ 253 && text.toList.head? ≠ some '.' && text.toList.getLast? ≠ some '.' &&
    (splitAll text '.').all fun label => dnsLabel label = some (toAsciiLowercase label)

def isName (text : String) : Bool :=
  text.toList.head?.any Char.isAlphanum && text.utf8ByteSize ≤ 32 &&
    text.toList.all fun c => c.isLower || c.isDigit || c = '-'

/-! ### The checks -/

def mapErr {α : Type} (f : String → String) : Except String α → Except String α
  | .ok a => .ok a
  | .error e => .error (f e)

def AddressPool.validate (net : Ipv4Net) (cidr : String) (pool : AddressPool) : Except String Unit := do
  let start ← parseAddress pool.start
  let stop ← parseAddress pool.stop
  check (start ≤ stop) ("pool " ++ pool.start ++ "-" ++ pool.stop ++ " is reversed")
  check (net.contains start && net.contains stop) ("pool " ++ pool.start ++ "-" ++ pool.stop ++ " is outside " ++ cidr)

def Network.validateDhcp (n : Network) : Except String Unit := do
  check (!n.dhcpEnabled || n.interface ≠ "") ("network " ++ n.name ++ " serves dhcp and needs an interface")
  check (!n.dhcpEnabled || n.pools ≠ []) ("network " ++ n.name ++ " serves dhcp and needs a pool")
  check (!n.dhcpEnabled || n.dnsServers ≠ []) ("network " ++ n.name ++ " serves dhcp and needs a dns server")
  check (!n.dhcpEnabled || 60 ≤ n.validLifetime)
    ("network " ++ n.name ++ " lifetime " ++ toString n.validLifetime ++ " is below 60s")

def Network.validate (n : Network) : Except String Unit := do
  check (isName n.name) ("network name " ++ n.name ++ " is invalid")
  let net ← parseCidr n.cidr
  let gateway ← mapErr ("gateway: " ++ ·) (parseAddress n.gateway)
  check (net.contains gateway) ("gateway " ++ n.gateway ++ " is outside " ++ n.cidr)
  check (isDomain n.domain) ("domain " ++ n.domain ++ " is invalid")
  n.validateDhcp
  forM n.dnsServers fun server => discard (mapErr (("dns server " ++ server ++ ": ") ++ ·) (parseAddress server))
  if n.nextServer = "" then .ok () else discard (mapErr ("next-server: " ++ ·) (parseAddress n.nextServer))
  forM n.pools (AddressPool.validate net n.cidr)

def validateNetworks : List (String × Ipv4Net) → List Network → Except String Unit
  | _, [] => .ok ()
  | nets, n :: rest => do
    n.validate
    let parsed ← parseCidr n.cidr
    forM nets fun other => check (!parsed.overlaps other.2) ("network " ++ n.name ++ " overlaps " ++ other.1)
    validateNetworks (nets ++ [(n.name, parsed)]) rest

def Catalog.network (c : Catalog) (name : String) : Option Network := c.networks.find? (·.name = name)

def Catalog.networkOf (c : Catalog) (r : Reservation) : Except String Network :=
  match c.network r.network with
  | some n => .ok n
  | none => .error ("reservation " ++ r.macAddress ++ " is on unknown network " ++ r.network)

def Reservation.validate (c : Catalog) (macs : List String) (r : Reservation) : Except String Unit := do
  let n ← c.networkOf r
  let net ← parseCidr n.cidr
  let ip ← parseAddress r.ipAddress
  check (net.contains ip) (r.ipAddress ++ " is outside " ++ n.cidr)
  let _ ← normalizeMac r.macAddress
  check (!macs.contains (toAsciiLowercase r.macAddress)) ("duplicate mac " ++ toAsciiLowercase r.macAddress)
  check (r.hostname = "" || (dnsLabel r.hostname).isSome) ("hostname " ++ r.hostname ++ " is not a dns label")

def validateReservations (c : Catalog) : List String → List Reservation → Except String Unit
  | _, [] => .ok ()
  | macs, r :: rest => do
    r.validate c macs
    validateReservations c (macs ++ [toAsciiLowercase r.macAddress]) rest

def Catalog.validate (c : Catalog) : Except String Unit := do
  check (c.upstream ≠ []) "at least one upstream DNS server is required"
  forM c.upstream fun server => discard (mapErr (("upstream " ++ server ++ ": ") ++ ·) (parseAddress server))
  let _ ← parseHostPort c.authoritative
  check (c.networks ≠ []) "at least one network is required"
  validateNetworks [] c.networks
  validateReservations c [] c.reservations
  forM c.records fun record =>
    check (record.rrtype ≠ "" && record.name ≠ "" && record.content ≠ "") "dns record needs a name, type, and content"

def Catalog.putReservation (c : Catalog) (r : Reservation) : Except String Catalog := do
  let mac ← normalizeMac r.macAddress
  let stored := c.reservations.filter (·.macAddress ≠ mac) ++ [{ r with macAddress := mac }]
  Catalog.validate { c with reservations := stored }
  .ok { c with reservations := stored }

end Kcore.Provisioning
