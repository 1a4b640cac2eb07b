import Kcore.Lib.SortedMap
import Kcore.Provisioning.Catalog
import Mathlib.Data.String.Basic

/-!
# Publishing the catalog

The provisioner plans the record sets of every zone from the catalog and brings a PowerDNS server to that state: it
replaces every planned set by its one record and deletes the sets of four types that are not planned.

A plan has one record for a name and a type, the first that the catalog has. `written` is the list of all of them;
`holds_plannedZones` says which of them the plan keeps, and `mem_contents_iff` that the server then holds just those.
-/

namespace Kcore.Provisioning.Dns

/-! ### The plan -/

structure Rrset where
  name : String
  rrtype : String
  ttl : Nat
  content : String
  deriving DecidableEq

structure ZonePlan where
  name : String
  nameserver : String
  rrsets : List Rrset

def fqdn (name : String) : String := trimDots (trim name) ++ "."

def toAsciiUppercase (s : String) : String := String.ofList (s.toList.map Char.toUpper)

def inAddrArpa (labels : List Nat) : String := ".".intercalate (labels.map toString ++ ["in-addr", "arpa"])

def reverseZone (addr : Nat) : String :=
  inAddrArpa [addr / 2 ^ 8 % 256, addr / 2 ^ 16 % 256, addr / 2 ^ 24 % 256]

def reverseZones (net : Ipv4Net) : List String :=
  if 24 < net.bits then [reverseZone net.addr]
  else (List.range (2 ^ (24 - net.bits))).map fun index => reverseZone ((net.addr + index * 2 ^ 8) % 2 ^ 32)

def reverseFor (ip : String) : Except String String := do
  let addr ← parseAddress ip
  .ok ((reverseZones ⟨addr, 24⟩).getLast?.getD "")

def ptrName (ip : String) : String :=
  let (a, b, c, d) := (parseIpv4 ip).getD (0, 0, 0, 0)
  fqdn (inAddrArpa [d, c, b, a])

def complete (rrtype content : String) : String :=
  if rrtype ∈ ["CNAME", "NS", "PTR", "MX", "SRV"] ∧ content.toList.getLast? ≠ some '.' ∧ '.' ∈ content.toList then
    content ++ "."
  else content

def rrsetFrom (record : DnsRecord) : Rrset where
  name := fqdn record.name
  rrtype := toAsciiUppercase record.rrtype
  ttl := record.ttl
  content := complete record.rrtype record.content

def pushUnique (rrset : Rrset) (rrsets : List Rrset) : List Rrset :=
  if rrsets.any (fun r => r.name = rrset.name && r.rrtype = rrset.rrtype) then rrsets else rrsets ++ [rrset]

abbrev Zones := SortedMap String (List Rrset)

/-- `entry(zone).or_default()`, changed in place. -/
def modify (zones : Zones) (zone : String) (f : List Rrset → List Rrset) : Zones :=
  zones.insert zone (f ((zones.get? zone).getD []))

def primary (c : Catalog) : Option Network := (c.networks.find? (·.dhcpEnabled)).or c.networks.head?

def nameserver (c : Catalog) : String := "ns1." ++ ((primary c).map (·.domain)).getD "home.arpa" ++ "."

def nameserverRrset (c : Catalog) (network : Network) : Rrset :=
  ⟨nameserver c, "A", 3600, network.dnsServers.head?.getD "127.0.0.1"⟩

/-- The first loop of `zone_plan`. -/
def addNetwork (zones : Zones) (network : Network) : Zones :=
  let reverse := match parseCidr network.cidr with
    | .ok net => reverseZones net
    | .error _ => []
  reverse.foldl (fun zones zone => modify zones (fqdn zone) id) (modify zones (fqdn network.domain) id)

def addNamed (zones : Zones) (network : Network) (r : Reservation) : Zones :=
  let name := fqdn (r.hostname ++ "." ++ network.domain)
  let zones := modify zones (fqdn network.domain) (pushUnique ⟨name, "A", 3600, r.ipAddress⟩)
  match reverseFor r.ipAddress with
  | .ok zone => modify zones (fqdn zone) (pushUnique ⟨ptrName r.ipAddress, "PTR", 3600, name⟩)
  | .error _ => zones

/-- The second loop of `zone_plan`. -/
def addReservation (c : Catalog) (zones : Zones) (r : Reservation) : Zones :=
  match c.network r.network with
  | none => zones
  | some network => if r.hostname = "" then zones else addNamed zones network r

/-- The third loop of `zone_plan`. -/
def addRecord (zones : Zones) (record : DnsRecord) : Zones :=
  modify zones (fqdn record.zone) (pushUnique (rrsetFrom record))

def plannedZones (c : Catalog) : Zones :=
  let zones : Zones := match primary c with
    | some network => modify .empty (fqdn network.domain) (· ++ [nameserverRrset c network])
    | none => .empty
  c.records.foldl addRecord (c.reservations.foldl (addReservation c) (c.networks.foldl addNetwork zones))

def zonePlan (c : Catalog) : List ZonePlan :=
  (plannedZones c).entries.map fun e => ⟨e.1, nameserver c, e.2⟩

/-! ### The server -/

structure Row where
  name : String
  rrtype : String
  contents : List String

abbrev Server := String → Option (List Row)

structure Change where
  name : String
  rrtype : String
  contents : Option (List String)

def owned (rrtype : String) : Bool := rrtype ∈ ["A", "PTR", "CNAME", "AAAA"]

def diffPatch (existing : List Row) (zone : ZonePlan) : List Change :=
  zone.rrsets.map (fun r => ⟨r.name, r.rrtype, some [r.content]⟩) ++
    (existing.filter fun row => owned row.rrtype &&
      !zone.rrsets.any (fun r => r.name = row.name && r.rrtype = row.rrtype)).map fun row =>
        ⟨row.name, row.rrtype, none⟩

def applyChange (rows : List Row) (change : Change) : List Row :=
  rows.filter (fun row => ¬ (row.name = change.name ∧ row.rrtype = change.rrtype)) ++
    (change.contents.map fun contents => ⟨change.name, change.rrtype, contents⟩).toList

def zonePath (name : String) : String := "/api/v1/servers/localhost/zones/" ++ name

/-- `get`, as the request with number `n`; `fault` gives the error of a request that does not come through. -/
def get (fault : Nat → Option String) (server : Server) (n : Nat) (name : String) : Except String (List Row) :=
  match fault n with
  | some err => .error err
  | none =>
    match server name with
    | some rows => .ok rows
    | none => .error ("pdns GET " ++ zonePath name ++ " returned 404")

def store (server : Server) (name : String) (rows : List Row) : Server :=
  fun zone => if zone = name then some rows else server zone

def post (fault : Nat → Option String) (server : Server) (n : Nat) (zone : ZonePlan) : Except String Server :=
  match fault n with
  | some err => .error err
  | none =>
    match server zone.name with
    | some _ => .error "pdns POST /api/v1/servers/localhost/zones returned 409"
    | none => .ok (store server zone.name [⟨zone.name, "SOA", []⟩, ⟨zone.name, "NS", [zone.nameserver]⟩])

/-- The part of `sync` on a zone that is there. -/
def patchZone (fault : Nat → Option String) (server : Server) (n : Nat) (zone : ZonePlan) :
    Except String (Server × Nat) := do
  let existing ← get fault server n zone.name
  let changes := diffPatch existing zone
  if changes = [] then .ok (server, n + 1)
  else
    match fault (n + 1) with
    | some err => .error err
    | none => .ok (store server zone.name (changes.foldl applyChange existing), n + 2)

def syncZone (fault : Nat → Option String) (state : Server × Nat) (zone : ZonePlan) : Except String (Server × Nat) :=
  match get fault state.1 state.2 zone.name with
  | .ok _ => patchZone fault state.1 (state.2 + 1) zone
  | .error err =>
    if textContains err "404" then do
      let server ← post fault state.1 (state.2 + 1) zone
      patchZone fault server (state.2 + 2) zone
    else .error err

def sync (fault : Nat → Option String) (server : Server) (zones : List ZonePlan) : Except String (Server × Nat) :=
  zones.foldlM (syncZone fault) (server, 0)

/-! ### What the catalog gives -/

def fits (zone name rrtype : String) (e : String × Rrset) : Bool :=
  e.1 = zone && e.2.name = name && e.2.rrtype = rrtype

def Gives (l : List (String × Rrset)) (zone name rrtype content : String) : Prop :=
  ∃ e ∈ l, fits zone name rrtype e ∧ e.2.content = content

def First (l : List (String × Rrset)) (zone name rrtype content : String) : Prop :=
  (l.find? (fits zone name rrtype)).map (·.2.content) = some content

def reservationSets (c : Catalog) (nameOf : String → Nat → String) (r : Reservation) : List (String × Rrset) :=
  match c.network r.network with
  | none => []
  | some network =>
    if r.hostname = "" then []
    else
      let name := fqdn (r.hostname ++ "." ++ network.domain)
      (fqdn network.domain, ⟨name, "A", 3600, r.ipAddress⟩) ::
        match parseAddress r.ipAddress with
        | .ok addr => [(fqdn (reverseZone addr), ⟨nameOf r.ipAddress addr, "PTR", 3600, name⟩)]
        | .error _ => []

def written (c : Catalog) : List (String × Rrset) :=
  ((primary c).map fun network => (fqdn network.domain, nameserverRrset c network)).toList ++
    c.reservations.flatMap (reservationSets c fun ip _ => ptrName ip) ++
    c.records.map fun record => (fqdn record.zone, rrsetFrom record)

def reverseName (addr : Nat) : String :=
  fqdn (inAddrArpa [addr % 256, addr / 2 ^ 8 % 256, addr / 2 ^ 16 % 256, addr / 2 ^ 24 % 256])

/-- The entries the catalog gives: the name server and the addresses under their own names, and every name in the
content of a record with the dot at its end. -/
def given (c : Catalog) : List (String × Rrset) :=
  ((primary c).map fun network =>
      (fqdn network.domain, { nameserverRrset c network with name := fqdn ("ns1." ++ network.domain) })).toList ++
    c.reservations.flatMap (reservationSets c fun _ addr => reverseName addr) ++
    c.records.map fun record =>
      (fqdn record.zone,
        { rrsetFrom record with content := complete (toAsciiUppercase record.rrtype) record.content })

def contents (rows : List Row) (name rrtype : String) : List String :=
  (rows.filter fun row => row.name = name ∧ row.rrtype = rrtype).flatMap (·.contents)

/-- After every sync that succeeds, from whatever the server held, every planned zone has the contents that the
catalog gives and no others. -/
def Published (c : Catalog) : Prop :=
  ∀ fault server state, sync fault server (zonePlan c) = .ok state → ∀ zone ∈ zonePlan c,
    ∃ rows, state.1 zone.name = some rows ∧ ∀ name rrtype content, owned rrtype →
      (content ∈ contents rows name rrtype ↔ Gives (given c) zone.name name rrtype content)

def Single (l : List (String × Rrset)) : Prop :=
  ∀ zone name rrtype x y, owned rrtype → Gives l zone name rrtype x → Gives l zone name rrtype y → x = y

/-- Every entry is written as it is given, or stands behind another one of its name and type. -/
def WrittenAsGiven (c : Catalog) : Prop :=
  ∀ zone name rrtype content, owned rrtype →
    (Gives (given c) zone name rrtype content → Gives (written c) zone name rrtype content) ∧
      (First (written c) zone name rrtype content → Gives (given c) zone name rrtype content)

/-! ### The plan keeps the first of each -/

def lookup (rrsets : List Rrset) (name rrtype : String) : Option Rrset :=
  rrsets.find? fun r => r.name = name && r.rrtype = rrtype

private theorem lookup_pushUnique (rrset : Rrset) (rrsets : List Rrset) (name rrtype : String) :
    lookup (pushUnique rrset rrsets) name rrtype = (lookup rrsets name rrtype).or (lookup [rrset] name rrtype) := by
  unfold pushUnique
  split_ifs with hany
  · by_cases hkey : rrset.name = name ∧ rrset.rrtype = rrtype
    · obtain ⟨rfl, rfl⟩ := hkey
      have hsome : (lookup rrsets rrset.name rrset.rrtype).isSome := by
        unfold lookup
        rw [List.find?_isSome]
        simpa using hany
      rw [Option.or_of_isSome hsome]
    · have hnone : lookup [rrset] name rrtype = none := by simpa [lookup] using hkey
      rw [hnone, Option.or_none]
  · exact List.find?_append

def Unique (rrsets : List Rrset) : Prop :=
  ∀ r ∈ rrsets, lookup rrsets r.name r.rrtype = some r

private theorem Unique.pushUnique {rrsets : List Rrset} (h : Unique rrsets) (rrset : Rrset) :
    Unique (pushUnique rrset rrsets) := by
  intro r hr
  rw [lookup_pushUnique]
  by_cases hold : r ∈ rrsets
  · rw [h r hold, Option.some_or]
  · -- a set that was not there is the new one, and no set had its name and type
    unfold Dns.pushUnique at hr
    split_ifs at hr with hany
    · exact absurd hr hold
    · have hnew : r = rrset := by simpa [hold] using hr
      subst hnew
      have hnone : lookup rrsets r.name r.rrtype = none := by simpa [lookup] using hany
      rw [hnone]
      simp [lookup]

structure Holds (zones : Zones) (l : List (String × Rrset)) : Prop where
  unique : ∀ zone, Unique ((zones.get? zone).getD [])
  first : ∀ zone name rrtype,
    lookup ((zones.get? zone).getD []) name rrtype = (l.find? (fits zone name rrtype)).map Prod.snd
  planned : ∀ e ∈ l, (zones.get? e.1).isSome

variable {zones : Zones} {l : List (String × Rrset)}

private theorem get?_modify (zones : Zones) (zone z : String) (f : List Rrset → List Rrset) :
    (modify zones zone f).get? z = if z = zone then some (f ((zones.get? zone).getD [])) else zones.get? z :=
  SortedMap.get?_insert zones zone z _

private theorem Holds.create (h : Holds zones l) (zone : String) : Holds (modify zones zone id) l := by
  have hget : ∀ z, ((modify zones zone id).get? z).getD [] = (zones.get? z).getD [] := by
    intro z
    rw [get?_modify]
    split_ifs with hz
    · rw [hz]; rfl
    · rfl
  refine ⟨fun z => ?_, fun z name rrtype => ?_, fun e he => ?_⟩
  · rw [hget]; exact h.unique z
  · rw [hget]; exact h.first z name rrtype
  · rw [get?_modify]
    split_ifs
    · rfl
    · exact h.planned e he

private theorem Holds.push (h : Holds zones l) (zone : String) (rrset : Rrset) :
    Holds (modify zones zone (pushUnique rrset)) (l ++ [(zone, rrset)]) := by
  refine ⟨fun z => ?_, fun z name rrtype => ?_, fun e he => ?_⟩
  · rw [get?_modify]
    split_ifs
    · exact (h.unique zone).pushUnique rrset
    · exact h.unique z
  · rw [get?_modify, List.find?_append, Option.map_or, ← h.first z name rrtype]
    split_ifs with hz
    · subst hz
      have hone : (List.find? (fits z name rrtype) [(z, rrset)]).map Prod.snd = lookup [rrset] name rrtype := by
        by_cases hkey : rrset.name = name ∧ rrset.rrtype = rrtype <;> simp [lookup, fits, hkey]
      rw [hone]
      exact lookup_pushUnique rrset _ name rrtype
    · have hnone : List.find? (fits z name rrtype) [(zone, rrset)] = none := by simp [fits, Ne.symm hz]
      rw [hnone, Option.map_none, Option.or_none]
  · rw [get?_modify]
    split_ifs with hz
    · rfl
    · refine h.planned e ((List.mem_append.mp he).resolve_right fun hlast => hz ?_)
      rw [List.mem_singleton.mp hlast]

private theorem Holds.addNetwork (h : Holds zones l) (network : Network) : Holds (addNetwork zones network) l := by
  have hreverse : ∀ (reverse : List String) (zones : Zones), Holds zones l →
      Holds (reverse.foldl (fun zones zone => modify zones (fqdn zone) id) zones) l := by
    intro reverse
    induction reverse with
    | nil => exact fun zones hz => hz
    | cons zone reverse ih => exact fun zones hz => ih _ (hz.create (fqdn zone))
  exact hreverse _ _ (h.create (fqdn network.domain))

private theorem reverseZone_mod (addr : Nat) : reverseZone (addr % 2 ^ 32) = reverseZone addr := by
  have h8 : addr % 2 ^ 32 / 2 ^ 8 % 256 = addr / 2 ^ 8 % 256 := by omega
  have h16 : addr % 2 ^ 32 / 2 ^ 16 % 256 = addr / 2 ^ 16 % 256 := by omega
  have h24 : addr % 2 ^ 32 / 2 ^ 24 % 256 = addr / 2 ^ 24 % 256 := by omega
  unfold reverseZone
  rw [h8, h16, h24]

private theorem reverseFor_eq (ip : String) : reverseFor ip = (parseAddress ip).map reverseZone := by
  unfold reverseFor
  cases parseAddress ip with
  | error e => rfl
  | ok addr =>
    have hzones : reverseZones ⟨addr, 24⟩ = [reverseZone (addr % 2 ^ 32)] := by simp [reverseZones]
    change Except.ok ((reverseZones ⟨addr, 24⟩).getLast?.getD "") = Except.ok (reverseZone addr)
    rw [hzones, reverseZone_mod]
    rfl

private theorem Holds.addReservation (h : Holds zones l) (c : Catalog) (r : Reservation) :
    Holds (addReservation c zones r) (l ++ reservationSets c (fun ip _ => ptrName ip) r) := by
  unfold Dns.addReservation reservationSets
  cases c.network r.network with
  | none => simpa using h
  | some network =>
    dsimp only
    split_ifs with hname
    · simpa using h
    · unfold addNamed
      rw [reverseFor_eq]
      have hforward := h.push (fqdn network.domain) ⟨fqdn (r.hostname ++ "." ++ network.domain), "A", 3600, r.ipAddress⟩
      cases parseAddress r.ipAddress with
      | error e => exact hforward
      | ok addr =>
        rw [List.append_cons]
        exact hforward.push (fqdn (reverseZone addr)) _

private theorem Holds.addNetworks (networks : List Network) (h : Holds zones l) :
    Holds (networks.foldl Dns.addNetwork zones) l := by
  induction networks generalizing zones with
  | nil => exact h
  | cons network networks ih =>
    rw [List.foldl_cons]
    exact ih (h.addNetwork network)

private theorem Holds.addReservations (c : Catalog) (reservations : List Reservation) (h : Holds zones l) :
    Holds (reservations.foldl (Dns.addReservation c) zones)
      (l ++ reservations.flatMap (reservationSets c fun ip _ => ptrName ip)) := by
  induction reservations generalizing zones l with
  | nil => simpa using h
  | cons r reservations ih =>
    rw [List.foldl_cons, List.flatMap_cons, ← List.append_assoc]
    exact ih (h.addReservation c r)

private theorem Holds.addRecords (records : List DnsRecord) (h : Holds zones l) :
    Holds (records.foldl addRecord zones) (l ++ records.map fun record => (fqdn record.zone, rrsetFrom record)) := by
  induction records generalizing zones l with
  | nil => simpa using h
  | cons record records ih =>
    rw [List.foldl_cons, List.map_cons, List.append_cons]
    exact ih (h.push (fqdn record.zone) (rrsetFrom record))

private theorem holds_plannedZones (c : Catalog) : Holds (plannedZones c) (written c) := by
  have hempty : Holds SortedMap.empty [] :=
    ⟨fun _ r hr => absurd hr List.not_mem_nil, fun _ _ _ => rfl, fun e he => absurd he List.not_mem_nil⟩
  unfold plannedZones written
  refine Holds.addRecords _ (Holds.addReservations c _ (Holds.addNetworks _ ?_))
  cases primary c with
  | none => exact hempty
  | some network =>
    have hfirst : modify SortedMap.empty (fqdn network.domain) (· ++ [nameserverRrset c network]) =
        modify SortedMap.empty (fqdn network.domain) (pushUnique (nameserverRrset c network)) := by
      unfold modify
      congr 1
    dsimp only
    rw [hfirst]
    exact hempty.push (fqdn network.domain) (nameserverRrset c network)

/-! ### The server holds what is planned -/

private theorem contents_applyChange (rows : List Row) (change : Change) (name rrtype : String) :
    contents (applyChange rows change) name rrtype =
      if change.name = name ∧ change.rrtype = rrtype then change.contents.getD [] else contents rows name rrtype := by
  unfold contents applyChange
  rw [List.filter_append, List.filter_filter, List.flatMap_append]
  split_ifs with hkey
  · obtain ⟨rfl, rfl⟩ := hkey
    have hold : rows.filter (fun row => decide (row.name = change.name ∧ row.rrtype = change.rrtype) &&
        decide (¬ (row.name = change.name ∧ row.rrtype = change.rrtype))) = [] := by
      rw [List.filter_eq_nil_iff]
      intro row _
      simp
    rw [hold]
    cases change.contents <;> simp
  · have hnew : ((change.contents.map fun contents => (⟨change.name, change.rrtype, contents⟩ : Row)).toList.filter
        fun row => row.name = name ∧ row.rrtype = rrtype) = [] := by
      cases change.contents with
      | none => rfl
      | some _ => simpa using hkey
    rw [hnew, List.flatMap_nil, List.append_nil]
    congr 1
    apply List.filter_congr
    intro row _
    by_cases hrow : row.name = name ∧ row.rrtype = rrtype
    · have hne : ¬ (row.name = change.name ∧ row.rrtype = change.rrtype) := fun h =>
        hkey ⟨h.1.symm.trans hrow.1, h.2.symm.trans hrow.2⟩
      rw [decide_eq_true hne, Bool.and_true]
    · rw [decide_eq_false hrow, Bool.false_and]

private theorem contents_foldl (changes : List Change) (rows : List Row) {name rrtype : String} {value : List String}
    (hagree : ∀ change ∈ changes, change.name = name → change.rrtype = rrtype → change.contents.getD [] = value)
    (hsome : contents rows name rrtype = value ∨ ∃ change ∈ changes, change.name = name ∧ change.rrtype = rrtype) :
    contents (changes.foldl applyChange rows) name rrtype = value := by
  induction changes generalizing rows with
  | nil => simpa using hsome
  | cons change changes ih =>
    refine ih (applyChange rows change) (fun ch hch => hagree ch (List.mem_cons_of_mem _ hch)) ?_
    rw [contents_applyChange]
    by_cases hkey : change.name = name ∧ change.rrtype = rrtype
    · left
      rw [if_pos hkey]
      exact hagree change List.mem_cons_self hkey.1 hkey.2
    · rw [if_neg hkey]
      rcases hsome with hsome | ⟨ch, hch, hch'⟩
      · exact .inl hsome
      · rcases List.mem_cons.mp hch with rfl | hch
        · exact absurd hch' hkey
        · exact .inr ⟨ch, hch, hch'⟩

def plannedContents (rrsets : List Rrset) (name rrtype : String) : List String :=
  ((lookup rrsets name rrtype).map (·.content)).toList

private theorem contents_diffPatch {zone : ZonePlan} (hunique : Unique zone.rrsets) (rows : List Row) (name : String)
    {rrtype : String} (howned : owned rrtype) :
    contents ((diffPatch rows zone).foldl applyChange rows) name rrtype = plannedContents zone.rrsets name rrtype := by
  have hlookup : ∀ r ∈ zone.rrsets, r.name = name → r.rrtype = rrtype → lookup zone.rrsets name rrtype = some r := by
    rintro r hr rfl rfl
    exact hunique r hr
  apply contents_foldl
  · intro change hchange hname htype
    rcases List.mem_append.mp hchange with hplanned | hstale
    · obtain ⟨r, hr, rfl⟩ := List.mem_map.mp hplanned
      rw [plannedContents, hlookup r hr hname htype]
      rfl
    · obtain ⟨row, hrow, rfl⟩ := List.mem_map.mp hstale
      have hnone : lookup zone.rrsets name rrtype = none := by
        obtain ⟨rfl, rfl⟩ : row.name = name ∧ row.rrtype = rrtype := ⟨hname, htype⟩
        have hrow' := (List.mem_filter.mp hrow).2
        rw [Bool.and_eq_true, Bool.not_eq_true', List.any_eq_false] at hrow'
        exact List.find?_eq_none.mpr hrow'.2
      rw [plannedContents, hnone]
      rfl
  · by_cases hsome : ∃ r ∈ zone.rrsets, r.name = name ∧ r.rrtype = rrtype
    · obtain ⟨r, hr, hkey⟩ := hsome
      exact .inr ⟨_, List.mem_append_left _ (List.mem_map_of_mem hr), hkey⟩
    · have hnone : lookup zone.rrsets name rrtype = none := by simpa [lookup] using hsome
      by_cases hrow : ∃ row ∈ rows, row.name = name ∧ row.rrtype = rrtype
      · -- a set of the server that is not planned is deleted
        obtain ⟨row, hrow, rfl, rfl⟩ := hrow
        refine .inr ⟨⟨row.name, row.rrtype, none⟩, List.mem_append_right _ (List.mem_map.mpr ⟨row, ?_, rfl⟩), rfl, rfl⟩
        have hfree : zone.rrsets.any (fun r => r.name = row.name && r.rrtype = row.rrtype) = false := by
          simpa using hsome
        simp [hrow, howned, hfree]
      · left
        have hempty : rows.filter (fun row => row.name = name ∧ row.rrtype = rrtype) = [] := by
          simpa [List.filter_eq_nil_iff] using hrow
        rw [contents, hempty, plannedContents, hnone]
        rfl

def Serves (server : Server) (zone : ZonePlan) : Prop :=
  ∃ rows, server zone.name = some rows ∧
    ∀ name rrtype, owned rrtype → contents rows name rrtype = plannedContents zone.rrsets name rrtype

variable {fault : Nat → Option String} {server : Server} {n : Nat} {zone : ZonePlan} {state state' : Server × Nat}

private theorem get_eq_ok {name : String} {rows : List Row} (h : get fault server n name = .ok rows) :
    server name = some rows := by
  unfold get at h
  split at h
  · cases h
  · split at h
    · cases h; assumption
    · cases h

private theorem patchZone_spec (hunique : Unique zone.rrsets) (h : patchZone fault server n zone = .ok state) :
    Serves state.1 zone ∧ ∀ z, z ≠ zone.name → state.1 z = server z := by
  obtain ⟨rows, hget, h⟩ := Checks.bind_eq_ok.mp h
  have hrows := get_eq_ok hget
  have hcontents := fun name rrtype (howned : owned rrtype) => contents_diffPatch hunique rows name howned
  dsimp only at h
  split at h
  · next hnil =>
    cases h
    rw [hnil] at hcontents
    exact ⟨⟨rows, hrows, hcontents⟩, fun z _ => rfl⟩
  · split at h
    · cases h
    · cases h
      exact ⟨⟨_, if_pos rfl, hcontents⟩, fun z hz => if_neg hz⟩

private theorem syncZone_spec (hunique : Unique zone.rrsets) (h : syncZone fault state zone = .ok state') :
    Serves state'.1 zone ∧ ∀ z, z ≠ zone.name → state'.1 z = state.1 z := by
  unfold syncZone at h
  split at h
  · exact patchZone_spec hunique h
  · split at h
    · obtain ⟨server, hpost, h⟩ := Checks.bind_eq_ok.mp h
      obtain ⟨hserves, hother⟩ := patchZone_spec hunique h
      refine ⟨hserves, fun z hz => (hother z hz).trans ?_⟩
      unfold post at hpost
      split at hpost
      · cases hpost
      · split at hpost
        · cases hpost
        · cases hpost
          exact if_neg hz
    · cases h

private theorem foldlM_syncZone {plan : List ZonePlan} (hnames : (plan.map (·.name)).Nodup)
    (hunique : ∀ zone ∈ plan, Unique zone.rrsets) (h : plan.foldlM (syncZone fault) state = .ok state') :
    (∀ zone ∈ plan, Serves state'.1 zone) ∧ ∀ z, z ∉ plan.map (·.name) → state'.1 z = state.1 z := by
  induction plan generalizing state with
  | nil =>
    cases h
    exact ⟨fun zone hzone => absurd hzone List.not_mem_nil, fun z _ => rfl⟩
  | cons zone plan ih =>
    rw [List.foldlM_cons] at h
    obtain ⟨mid, hmid, h⟩ := Checks.bind_eq_ok.mp h
    obtain ⟨hfresh, hnames⟩ := List.nodup_cons.mp hnames
    obtain ⟨hserves, hother⟩ := syncZone_spec (hunique zone List.mem_cons_self) hmid
    obtain ⟨hrest, hkeep⟩ := ih hnames (fun z hz => hunique z (List.mem_cons_of_mem _ hz)) h
    refine ⟨fun z hz => ?_, fun z hz => ?_⟩
    · rcases List.mem_cons.mp hz with rfl | hz
      · -- the zones after this one have other names and leave it alone
        obtain ⟨rows, hrows, hcontents⟩ := hserves
        exact ⟨rows, (hkeep _ hfresh).trans hrows, hcontents⟩
      · exact hrest z hz
    · rw [List.map_cons, List.mem_cons, not_or] at hz
      rw [hkeep z hz.2, hother z hz.1]

private theorem patchZone_succeeds {rows : List Row} (hrows : server zone.name = some rows) (n : Nat) :
    ∃ state', patchZone (fun _ => none) server n zone = .ok state' := by
  have hget : get (fun _ => none) server n zone.name = .ok rows := by simp [get, hrows]
  unfold patchZone
  rw [hget]
  by_cases hnil : diffPatch rows zone = []
  · exact ⟨_, if_pos hnil⟩
  · exact ⟨_, if_neg hnil⟩

private theorem syncZone_succeeds (state : Server × Nat) (zone : ZonePlan) :
    ∃ state', syncZone (fun _ => none) state zone = .ok state' := by
  unfold syncZone
  cases hrows : state.1 zone.name with
  | some rows =>
    have hget : get (fun _ => none) state.1 state.2 zone.name = .ok rows := by simp [get, hrows]
    rw [hget]
    exact patchZone_succeeds hrows _
  | none =>
    have hget : get (fun _ => none) state.1 state.2 zone.name =
        .error ("pdns GET " ++ zonePath zone.name ++ " returned 404") := by simp [get, hrows]
    have hmissing : textContains ("pdns GET " ++ zonePath zone.name ++ " returned 404") "404" = true := by
      have htail : "404".toList <:+: " returned 404".toList := by decide
      refine decide_eq_true (htail.trans ?_)
      rw [String.toList_append]
      exact (List.suffix_append _ _).isInfix
    rw [hget]
    dsimp only
    rw [if_pos hmissing, post, hrows]
    exact patchZone_succeeds (if_pos rfl) _

private theorem sync_succeeds (plan : List ZonePlan) (state : Server × Nat) :
    ∃ state', plan.foldlM (syncZone fun _ => none) state = .ok state' := by
  induction plan generalizing state with
  | nil => exact ⟨state, rfl⟩
  | cons zone plan ih =>
    obtain ⟨mid, hmid⟩ := syncZone_succeeds state zone
    obtain ⟨state', hrest⟩ := ih mid
    refine ⟨state', ?_⟩
    rw [List.foldlM_cons, hmid]
    exact hrest

/-! ### Publishing -/

variable {c : Catalog} {z name rrtype : String}

private theorem mem_zonePlan {zone : ZonePlan} (h : zone ∈ zonePlan c) :
    (plannedZones c).get? zone.name = some zone.rrsets := by
  obtain ⟨e, he, rfl⟩ := List.mem_map.mp h
  exact SortedMap.get?_eq_some.mpr he

private theorem mem_contents_iff (h : sync fault server (zonePlan c) = .ok state) (hzone : zone ∈ zonePlan c) :
    ∃ rows, state.1 zone.name = some rows ∧ ∀ name rrtype content, owned rrtype →
      (content ∈ contents rows name rrtype ↔ First (written c) zone.name name rrtype content) := by
  have hholds := holds_plannedZones c
  have hunique : ∀ zone ∈ zonePlan c, Unique zone.rrsets := by
    intro zone hzone
    have hone := hholds.unique zone.name
    rwa [mem_zonePlan hzone] at hone
  have hnames : ((zonePlan c).map (·.name)).Nodup := by
    have hkeys := (plannedZones c).nodup_keys
    rwa [zonePlan, List.map_map]
  obtain ⟨rows, hrows, hcontents⟩ := (foldlM_syncZone hnames hunique h).1 zone hzone
  refine ⟨rows, hrows, fun name rrtype content howned => ?_⟩
  have hfirst := hholds.first zone.name name rrtype
  rw [mem_zonePlan hzone] at hfirst
  rw [hcontents name rrtype howned, plannedContents, First, Option.mem_toList]
  change (lookup ((some zone.rrsets).getD []) name rrtype).map _ = _ ↔ _
  rw [hfirst, Option.map_map]
  rfl

private theorem First.gives {content : String} (h : First l z name rrtype content) : Gives l z name rrtype content := by
  obtain ⟨e, he, hcontent⟩ := Option.map_eq_some_iff.mp h
  exact ⟨e, List.mem_of_find?_eq_some he, List.find?_some he, hcontent⟩

private theorem Gives.first {content : String} (h : Gives l z name rrtype content) : ∃ x, First l z name rrtype x := by
  obtain ⟨e, he, hfits, -⟩ := h
  have hsome : (l.find? (fits z name rrtype)).isSome := List.find?_isSome.mpr ⟨e, he, hfits⟩
  obtain ⟨e', he'⟩ := Option.isSome_iff_exists.mp hsome
  exact ⟨e'.2.content, by rw [First, he']; rfl⟩

private theorem First.unique {x y : String} (hx : First l z name rrtype x) (hy : First l z name rrtype y) : x = y :=
  Option.some.inj (hx.symm.trans hy)

private theorem zone_written {e : String × Rrset} (h : e ∈ given c) : ∃ w ∈ written c, w.1 = e.1 := by
  have hsets : ∀ (f g : String → Nat → String) (r : Reservation),
      (reservationSets c f r).map Prod.fst = (reservationSets c g r).map Prod.fst := by
    intro f g r
    unfold reservationSets
    cases c.network r.network with
    | none => rfl
    | some network =>
      dsimp only
      split_ifs
      · rfl
      · cases parseAddress r.ipAddress <;> rfl
  have hzones : (given c).map Prod.fst = (written c).map Prod.fst := by
    unfold given written
    simp only [List.map_append, List.map_flatMap, List.map_map, Option.toList_map, hsets _ fun ip _ => ptrName ip]
    rfl
  have hmem : e.1 ∈ (given c).map Prod.fst := List.mem_map_of_mem h
  rw [hzones] at hmem
  exact List.mem_map.mp hmem

private theorem exists_plan_of_written {w : String × Rrset} (h : w ∈ written c) :
    ∃ zone ∈ zonePlan c, zone.name = w.1 := by
  obtain ⟨rrsets, hrrsets⟩ := Option.isSome_iff_exists.mp ((holds_plannedZones c).planned w h)
  exact ⟨_, List.mem_map_of_mem (SortedMap.get?_eq_some.mp hrrsets), rfl⟩

private theorem Gives.exists_zone {content : String} (h : Gives l z name rrtype content) : ∃ e ∈ l, e.1 = z := by
  obtain ⟨e, he, hfits, -⟩ := h
  simp only [fits, Bool.and_eq_true, decide_eq_true_eq] at hfits
  exact ⟨e, he, hfits.1.1⟩

private theorem published_iff_first (c : Catalog) : Published c ↔ ∀ z name rrtype content, owned rrtype →
    (First (written c) z name rrtype content ↔ Gives (given c) z name rrtype content) := by
  constructor
  · intro hpublished z name rrtype content howned
    -- a sync from an empty server succeeds and shows which entries come first
    obtain ⟨state, hsync⟩ := sync_succeeds (zonePlan c) (fun _ => none, 0)
    have hplanned : (∃ w ∈ written c, w.1 = z) →
        (First (written c) z name rrtype content ↔ Gives (given c) z name rrtype content) := by
      rintro ⟨w, hw, rfl⟩
      obtain ⟨zone, hzone, hname⟩ := exists_plan_of_written hw
      obtain ⟨rows, hrows, hserved⟩ := mem_contents_iff hsync hzone
      obtain ⟨rows', hrows', hgiven⟩ := hpublished _ _ _ hsync zone hzone
      obtain rfl : rows = rows' := Option.some.inj (hrows.symm.trans hrows')
      rw [← hname, ← hserved name rrtype content howned, hgiven name rrtype content howned]
    constructor
    · intro hfirst
      exact (hplanned hfirst.gives.exists_zone).mp hfirst
    · intro hgives
      obtain ⟨e, he, hz⟩ := hgives.exists_zone
      exact (hplanned (hz ▸ zone_written he)).mpr hgives
  · intro hfirst fault server state hsync zone hzone
    obtain ⟨rows, hrows, hserved⟩ := mem_contents_iff hsync hzone
    refine ⟨rows, hrows, fun name rrtype content howned => ?_⟩
    rw [hserved name rrtype content howned]
    exact hfirst zone.name name rrtype content howned

/-- Nothing is trimmed off the domain of the name server or off a reserved address, and types are in upper case. -/
structure PlainTexts (c : Catalog) : Prop where
  domain : ∀ network ∈ primary c, trimDots (trim ("ns1." ++ network.domain)) = "ns1." ++ network.domain
  address : ∀ r ∈ c.reservations, trimDots (trim r.ipAddress) = r.ipAddress
  rrtype : ∀ record ∈ c.records, toAsciiUppercase record.rrtype = record.rrtype

private theorem ptrName_eq {ip : String} {addr : Nat} (hplain : trimDots (trim ip) = ip)
    (h : parseAddress ip = .ok addr) : ptrName ip = reverseName addr := by
  unfold parseAddress at h
  dsimp only at h
  rw [hplain] at h
  split at h
  · next a b c d hparse =>
    obtain ⟨⟨ha, hb, hc, hd⟩, -⟩ := parseIpv4_eq_some hparse
    obtain rfl := Except.ok.inj h
    have hlow : (((a * 256 + b) * 256 + c) * 256 + d) % 256 = d := by omega
    have hthird : (((a * 256 + b) * 256 + c) * 256 + d) / 2 ^ 8 % 256 = c := by omega
    have hsecond : (((a * 256 + b) * 256 + c) * 256 + d) / 2 ^ 16 % 256 = b := by omega
    have hfirst : (((a * 256 + b) * 256 + c) * 256 + d) / 2 ^ 24 % 256 = a := by omega
    rw [ptrName, reverseName, hparse, hlow, hthird, hsecond, hfirst]
    rfl
  · cases h

private theorem reservationSets_congr {r : Reservation} (h : trimDots (trim r.ipAddress) = r.ipAddress) :
    reservationSets c (fun ip _ => ptrName ip) r = reservationSets c (fun _ addr => reverseName addr) r := by
  unfold reservationSets
  cases haddr : parseAddress r.ipAddress with
  | error e => rfl
  | ok addr => simp only [ptrName_eq h haddr]

theorem writtenAsGiven_of_plain (h : PlainTexts c) : WrittenAsGiven c := by
  have hprimary : (primary c).map (fun network => (fqdn network.domain, nameserverRrset c network)) =
      (primary c).map fun network =>
        (fqdn network.domain, { nameserverRrset c network with name := fqdn ("ns1." ++ network.domain) }) := by
    refine Option.map_congr fun network hp => ?_
    have hname : nameserver c = fqdn ("ns1." ++ network.domain) := by
      simp only [nameserver, fqdn, h.domain network hp, Option.mem_def.mp hp, Option.map_some, Option.getD_some]
    simp only [nameserverRrset, hname]
  have hreservations := List.flatMap_congr fun r hr => reservationSets_congr (c := c) (h.address r hr)
  have hrecords : c.records.map (fun record => (fqdn record.zone, rrsetFrom record)) = c.records.map fun record =>
      (fqdn record.zone,
        { rrsetFrom record with content := complete (toAsciiUppercase record.rrtype) record.content }) :=
    List.map_congr_left fun record hrecord => by simp only [rrsetFrom, h.rrtype record hrecord]
  have heq : written c = given c := by
    rw [written, given, hprimary, hreservations, hrecords]
  intro zone name rrtype content _
  rw [heq]
  exact ⟨id, First.gives⟩

/-- The catalog is published exactly if no name has two contents of one type in one zone, and every entry that
comes first is written as it is given. -/
theorem published_iff (c : Catalog) : Published c ↔ Single (given c) ∧ WrittenAsGiven c := by
  rw [published_iff_first]
  constructor
  · intro hfirst
    refine ⟨fun z name rrtype x y howned hx hy => ?_, fun z name rrtype content howned => ⟨fun hgives => ?_, ?_⟩⟩
    · have hx' := (hfirst z name rrtype x howned).mpr hx
      have hy' := (hfirst z name rrtype y howned).mpr hy
      exact hx'.unique hy'
    · exact ((hfirst z name rrtype content howned).mpr hgives).gives
    · exact (hfirst z name rrtype content howned).mp
  · rintro ⟨hsingle, hwritten⟩ z name rrtype content howned
    constructor
    · exact (hwritten z name rrtype content howned).2
    · intro hgives
      obtain ⟨x, hx⟩ := ((hwritten z name rrtype content howned).1 hgives).first
      have hgiven := (hwritten z name rrtype x howned).2 hx
      rwa [hsingle z name rrtype content x howned hgives hgiven]

def twoAddresses : Catalog where
  upstream := ["10.0.0.1"]
  authoritative := "127.0.0.1:5300"
  networks := [⟨"lan", "", "10.0.0.0/24", "10.0.0.1", "home.arpa", ["10.0.0.1"], [], false, 0, "", ""⟩]
  reservations := []
  records := ["10.0.0.2", "10.0.0.3"].map fun address => ⟨"home.arpa", "www.home.arpa", "A", address, 300⟩

theorem second_address_lost : twoAddresses.validate = .ok () ∧ ¬ Published twoAddresses := by
  refine ⟨by decide +kernel, fun hpublished => ?_⟩
  have hsecond : Gives (given twoAddresses) "home.arpa." "www.home.arpa." "A" "10.0.0.3" :=
    ⟨("home.arpa.", ⟨"www.home.arpa.", "A", 300, "10.0.0.3"⟩), by decide +kernel, by decide, rfl⟩
  have hfirst := ((published_iff_first _).mp hpublished _ _ _ _ (by decide)).mpr hsecond
  revert hfirst
  unfold First
  decide +kernel

end Kcore.Provisioning.Dns
