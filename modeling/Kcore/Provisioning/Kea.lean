import Kcore.Provisioning.Catalog
import Mathlib.Data.List.Perm.Basic
import Mathlib.Data.List.Nodup

/-!
# The rendered DHCP configuration

Each network that serves DHCP becomes a subnet with its pools and with the reservations that carry its name. The
checks on a catalog look at each reservation and each pool by itself: two reservations may have one address, or one
hardware address in two spellings, pools may overlap and contain the gateway, and two networks may share a name.
`promises_iff` says that the rendered configuration promises each address once exactly if none of this happens.
-/

namespace Kcore.Provisioning

structure KeaReservation where
  hwAddress : String
  ipAddress : String
  hostname : String
  deriving DecidableEq

structure OptionData where
  name : String
  data : String

structure Subnet where
  id : Int
  subnet : Except String Ipv4Net
  interface : String
  validLifetime : Nat
  renewTimer : Nat
  rebindTimer : Nat
  pools : List AddressPool
  optionData : List OptionData
  reservations : List KeaReservation
  nextServer : Option String
  bootFileName : Option String

def httpBoot (n : Network) : Bool := startsWith n.bootFileName "http://" || startsWith n.bootFileName "https://"

def keaReservation (r : Reservation) : KeaReservation := ⟨r.macAddress, r.ipAddress, r.hostname⟩

def subnet (c : Catalog) (n : Network) (id : Int) : Subnet where
  id := id
  subnet := parseCidr n.cidr
  interface := n.interface
  validLifetime := n.validLifetime
  renewTimer := n.validLifetime / 2
  -- the product saturates at the largest `u32`
  rebindTimer := min (n.validLifetime * 7) 4294967295 / 8
  pools := n.pools
  optionData :=
    [⟨"routers", n.gateway⟩, ⟨"domain-name-servers", ", ".intercalate n.dnsServers⟩, ⟨"domain-name", n.domain⟩] ++
      if n.bootFileName ≠ "" && !httpBoot n then [⟨"boot-file-name", n.bootFileName⟩] else []
  reservations := (c.reservations.filter (·.network = n.name)).map keaReservation
  nextServer := if n.nextServer = "" then none else some n.nextServer
  bootFileName := if n.bootFileName ≠ "" && !httpBoot n then some n.bootFileName else none

def Catalog.enabledNetworks (c : Catalog) : List Network := c.networks.filter (·.dhcpEnabled)

def keaSubnets (c : Catalog) : List Subnet := c.enabledNetworks.mapIdx fun i n => subnet c n (i + 1)

/-! ### What is promised -/

def Subnet.gateway (s : Subnet) : Option (Except String Nat) :=
  (s.optionData.find? (·.name = "routers")).map fun o => parseAddress o.data

def AddressPool.Has (p : AddressPool) (ip : Except String Nat) : Prop :=
  ∃ start stop a, parseAddress p.start = .ok start ∧ parseAddress p.stop = .ok stop ∧ ip = .ok a ∧ start ≤ a ∧ a ≤ stop

def AddressPool.Apart (p q : AddressPool) : Prop := ∀ a, ¬(p.Has (.ok a) ∧ q.Has (.ok a))

/-- A configuration that promises no address twice: the claims about all subnets, and the place of each reservation of a
network that serves DHCP. -/
structure PromisesOnce (c : Catalog) (subnets : List Subnet) : Prop where
  addresses : ((subnets.flatMap (·.reservations)).map fun r => parseAddress r.ipAddress).Nodup
  hardware : ((subnets.flatMap (·.reservations)).map fun r => normalizeMac r.hwAddress).Nodup
  gateways : ∀ s ∈ subnets, ∀ r ∈ s.reservations, s.gateway ≠ some (parseAddress r.ipAddress)
  pools : ∀ s ∈ subnets, s.pools.Pairwise AddressPool.Apart ∧ ∀ p ∈ s.pools, ∀ g ∈ s.gateway, ¬p.Has g
  placed : ∀ r ∈ c.reservations, ∀ n ∈ c.network r.network, n.dhcpEnabled = true →
    ∃ s net ip, subnets.filter (fun s => keaReservation r ∈ s.reservations) = [s] ∧ s.subnet = .ok net ∧
      parseAddress r.ipAddress = .ok ip ∧ net.contains ip = true

def Catalog.served (c : Catalog) (r : Reservation) : Bool := c.enabledNetworks.any (·.name = r.network)

structure Unambiguous (c : Catalog) : Prop where
  names : ∀ r ∈ c.reservations, c.enabledNetworks.countP (·.name = r.network) ≤ 1
  addresses : ((c.reservations.filter c.served).map fun r => parseAddress r.ipAddress).Nodup
  hardware : ((c.reservations.filter c.served).map fun r => normalizeMac r.macAddress).Nodup
  gateways : ∀ n ∈ c.enabledNetworks, ∀ r ∈ c.reservations, r.network = n.name →
    parseAddress n.gateway ≠ parseAddress r.ipAddress
  pools : ∀ n ∈ c.enabledNetworks, n.pools.Pairwise AddressPool.Apart ∧ ∀ p ∈ n.pools, ¬p.Has (parseAddress n.gateway)

/-! ### Reservations by network -/

section

variable {α β κ : Type} [DecidableEq α] [DecidableEq κ] {xs : List β} {name : β → κ} {rs : List α} {key : α → κ}

theorem count_flatMap_filter (r : α) :
    (xs.flatMap fun x => rs.filter (key · = name x)).count r = xs.countP (name · = key r) * rs.count r := by
  induction xs with
  | nil => simp
  | cons x xs ih =>
    rw [List.flatMap_cons, List.count_append, ih, List.countP_cons]
    by_cases h : key r = name x
    · rw [List.count_filter (by simpa using h), if_pos (by simpa using h.symm), Nat.add_mul, Nat.one_mul, Nat.add_comm]
    · have hnot : r ∉ rs.filter (key · = name x) := fun hr => h (by simpa using (List.mem_filter.mp hr).2)
      rw [List.count_eq_zero_of_not_mem hnot, if_neg (by simpa using Ne.symm h), Nat.zero_add, Nat.add_zero]

theorem perm_flatMap_filter (h : ∀ r ∈ rs, xs.countP (name · = key r) ≤ 1) :
    (xs.flatMap fun x => rs.filter (key · = name x)).Perm (rs.filter fun r => xs.any (name · = key r)) := by
  rw [List.perm_iff_count]
  intro r
  rw [count_flatMap_filter]
  by_cases hr : r ∈ rs
  · cases hany : xs.any (name · = key r) with
    | true =>
      have hpos : 0 < xs.countP (name · = key r) := List.countP_pos_iff.mpr (by simpa using hany)
      have hone : xs.countP (name · = key r) = 1 := by
        have := h r hr
        omega
      rw [hone, Nat.one_mul, List.count_filter (p := fun r => xs.any (name · = key r)) hany]
    | false =>
      have hzero : xs.countP (name · = key r) = 0 := List.countP_eq_zero.mpr (by simpa using hany)
      have hnot : r ∉ rs.filter fun r => xs.any (name · = key r) := fun hm =>
        absurd (hany.symm.trans (List.mem_filter.mp hm).2) (by decide)
      rw [hzero, Nat.zero_mul, List.count_eq_zero_of_not_mem hnot]
  · rw [List.count_eq_zero_of_not_mem hr, List.count_eq_zero_of_not_mem fun hm =>
      hr (List.mem_of_mem_filter hm), Nat.mul_zero]

theorem countP_le_one_of_nodup (h : (xs.flatMap fun x => rs.filter (key · = name x)).Nodup) :
    ∀ r ∈ rs, xs.countP (name · = key r) ≤ 1 := by
  intro r hr
  have hle := List.nodup_iff_count_le_one.mp h r
  have hpos : 0 < rs.count r := List.count_pos_iff.mpr hr
  rw [count_flatMap_filter] at hle
  calc xs.countP (name · = key r) ≤ xs.countP (name · = key r) * rs.count r := Nat.le_mul_of_pos_right _ hpos
    _ ≤ 1 := hle

theorem nodup_flatMap_iff {γ : Type} (f : α → γ) :
    ((xs.flatMap fun x => rs.filter (key · = name x)).map f).Nodup ↔
      (∀ r ∈ rs, xs.countP (name · = key r) ≤ 1) ∧ ((rs.filter fun r => xs.any (name · = key r)).map f).Nodup := by
  constructor
  · intro h
    have hone := countP_le_one_of_nodup (List.Nodup.of_map f h)
    exact ⟨hone, ((perm_flatMap_filter hone).map f).nodup_iff.mp h⟩
  · rintro ⟨hone, h⟩
    exact ((perm_flatMap_filter hone).map f).nodup_iff.mpr h

end

/-! ### The rendered subnets -/

@[simp] theorem reservations_subnet (c : Catalog) (n : Network) (i : Int) :
    (subnet c n i).reservations = (c.reservations.filter (·.network = n.name)).map keaReservation := rfl

@[simp] theorem pools_subnet (c : Catalog) (n : Network) (i : Int) : (subnet c n i).pools = n.pools := rfl

@[simp] theorem subnet_subnet (c : Catalog) (n : Network) (i : Int) : (subnet c n i).subnet = parseCidr n.cidr := by
  simp only [subnet]

@[simp] theorem gateway_subnet (c : Catalog) (n : Network) (i : Int) :
    (subnet c n i).gateway = some (parseAddress n.gateway) := by
  simp [Subnet.gateway, subnet]

theorem map_keaSubnets {γ : Type} (c : Catalog) (f : Subnet → γ) (g : Network → γ) (h : ∀ n i, f (subnet c n i) = g n) :
    (keaSubnets c).map f = c.enabledNetworks.map g := by
  unfold keaSubnets
  apply List.ext_getElem
  · simp
  · intro i _ _
    simp [h]

variable {c : Catalog}

theorem filter_keaSubnets {γ : Type} {q : Subnet → Bool} {q' : Network → Bool} {f : Subnet → γ} {g : Network → γ}
    (hq : ∀ n i, q (subnet c n i) = q' n) (hf : ∀ n i, f (subnet c n i) = g n) :
    ((keaSubnets c).filter q).map f = (c.enabledNetworks.filter q').map g := by
  have hpairs := map_keaSubnets c (fun s => (q s, f s)) (fun n => (q' n, g n)) fun n i => Prod.ext (hq n i) (hf n i)
  have hfilter := congrArg (fun l => (l.filter (·.1)).map (·.2)) hpairs
  simpa [List.filter_map, Function.comp_def] using hfilter

theorem forall_keaSubnets {P : Subnet → Prop} {Q : Network → Prop} (h : ∀ n i, P (subnet c n i) ↔ Q n) :
    (∀ s ∈ keaSubnets c, P s) ↔ ∀ n ∈ c.enabledNetworks, Q n := by
  have hmap := map_keaSubnets c P Q fun n i => propext (h n i)
  constructor
  · intro hall n hn
    have hmem : Q n ∈ (keaSubnets c).map P := hmap ▸ List.mem_map_of_mem hn
    obtain ⟨s, hs, heq⟩ := List.mem_map.mp hmem
    exact heq ▸ hall s hs
  · intro hall s hs
    have hmem : P s ∈ c.enabledNetworks.map Q := hmap ▸ List.mem_map_of_mem hs
    obtain ⟨n, hn, heq⟩ := List.mem_map.mp hmem
    exact heq ▸ hall n hn

theorem reservations_keaSubnets (c : Catalog) :
    (keaSubnets c).flatMap (·.reservations) =
      (c.enabledNetworks.flatMap fun n => c.reservations.filter (·.network = n.name)).map keaReservation := by
  rw [List.flatMap_def, List.flatMap_def, List.map_flatten, List.map_map,
    map_keaSubnets c (·.reservations) (fun n => (c.reservations.filter (·.network = n.name)).map keaReservation)
      (reservations_subnet c)]
  rfl

/-! ### What the checks ensure -/

theorem validate_reservation {macs : List String} {r : Reservation} (h : r.validate c macs = .ok ()) :
    (∃ n net ip, c.network r.network = some n ∧ parseCidr n.cidr = .ok net ∧ parseAddress r.ipAddress = .ok ip ∧
      net.contains ip = true) ∧ toAsciiLowercase r.macAddress ∉ macs := by
  simp only [Reservation.validate, Checks.bind_eq_ok, Checks.check_eq_ok] at h
  obtain ⟨n, hn, net, hnet, ip, hip, _, hin, _, _, _, hmac, _⟩ := h
  refine ⟨⟨n, net, ip, ?_, hnet, hip, hin⟩, by simpa using hmac⟩
  unfold Catalog.networkOf at hn
  cases hfind : c.network r.network with
  | none => simp [hfind] at hn
  | some m =>
    rw [hfind] at hn
    cases hn
    rfl

theorem validateReservations_ok {macs : List String} {rs : List Reservation}
    (h : validateReservations c macs rs = .ok ()) :
    (∀ r ∈ rs, ∃ n net ip, c.network r.network = some n ∧ parseCidr n.cidr = .ok net ∧
      parseAddress r.ipAddress = .ok ip ∧ net.contains ip = true) ∧
    (macs.Nodup → (macs ++ rs.map fun r => toAsciiLowercase r.macAddress).Nodup) := by
  induction rs generalizing macs with
  | nil => exact ⟨fun r hr => (nomatch hr), fun hn => by simpa using hn⟩
  | cons r rs ih =>
    obtain ⟨_, hr, hrest⟩ := Checks.bind_eq_ok.mp h
    obtain ⟨hplace, hnew⟩ := validate_reservation hr
    obtain ⟨hall, hnodup⟩ := ih hrest
    refine ⟨fun r' hr' => ?_, fun hn => ?_⟩
    · rcases List.mem_cons.mp hr' with rfl | hr'
      · exact hplace
      · exact hall r' hr'
    · have hmacs : (macs ++ [toAsciiLowercase r.macAddress]).Nodup := by
        rw [List.nodup_append_comm]
        simpa using ⟨hnew, hn⟩
      simpa using hnodup hmacs

theorem validateReservations_of_validate (h : c.validate = .ok ()) :
    validateReservations c [] c.reservations = .ok () := by
  simp only [Catalog.validate, Checks.bind_eq_ok] at h
  obtain ⟨_, _, _, _, _, _, _, _, _, _, _, hres, _⟩ := h
  exact hres

theorem eq_of_keaReservation (h : c.validate = .ok ()) {r r' : Reservation} (hr : r ∈ c.reservations)
    (hr' : r' ∈ c.reservations) (heq : keaReservation r' = keaReservation r) : r' = r := by
  have hnodup := (validateReservations_ok (validateReservations_of_validate h)).2 List.nodup_nil
  rw [List.nil_append] at hnodup
  have hmac : r'.macAddress = r.macAddress := congrArg KeaReservation.hwAddress heq
  exact List.inj_on_of_nodup_map hnodup hr' hr (congrArg toAsciiLowercase hmac)

theorem placed_of_names (h : c.validate = .ok ()) {r : Reservation} (hr : r ∈ c.reservations) {n : Network}
    (hn : c.network r.network = some n) (hdhcp : n.dhcpEnabled = true)
    (hone : c.enabledNetworks.countP (·.name = r.network) ≤ 1) :
    ∃ s net ip, (keaSubnets c).filter (fun s => keaReservation r ∈ s.reservations) = [s] ∧ s.subnet = .ok net ∧
      parseAddress r.ipAddress = .ok ip ∧ net.contains ip = true := by
  obtain ⟨m, net, ip, hm, hnet, hip, hin⟩ := (validateReservations_ok (validateReservations_of_validate h)).1 r hr
  obtain rfl : n = m := Option.some.inj (hn.symm.trans hm)
  -- the subnets that have the reservation are those of the networks with its name
  have hlists : ∀ k i, decide (keaReservation r ∈ (subnet c k i).reservations) = decide (k.name = r.network) := by
    intro k i
    rw [decide_eq_decide, reservations_subnet, List.mem_map]
    constructor
    · rintro ⟨r', hr', heq⟩
      obtain ⟨hmem, hnet'⟩ := List.mem_filter.mp hr'
      rw [eq_of_keaReservation h hr hmem heq] at hnet'
      exact (of_decide_eq_true hnet').symm
    · exact fun hk => ⟨r, List.mem_filter.mpr ⟨hr, decide_eq_true hk.symm⟩, rfl⟩
  have hmap : ((keaSubnets c).filter fun s => keaReservation r ∈ s.reservations).map (·.subnet) =
      (c.enabledNetworks.filter (·.name = r.network)).map fun k => parseCidr k.cidr :=
    filter_keaSubnets hlists (subnet_subnet c)
  have hfilter : c.enabledNetworks.filter (·.name = r.network) = [n] := by
    have hname : n.name = r.network := by simpa using List.find?_some hn
    have hmem : n ∈ c.enabledNetworks.filter (·.name = r.network) :=
      List.mem_filter.mpr ⟨List.mem_filter.mpr ⟨List.mem_of_find?_eq_some hn, hdhcp⟩, decide_eq_true hname⟩
    rw [List.countP_eq_length_filter] at hone
    obtain ⟨k, hk⟩ := List.length_eq_one_iff.mp (Nat.le_antisymm hone (List.length_pos_of_mem hmem))
    rw [hk] at hmem ⊢
    rw [List.mem_singleton.mp hmem]
  rw [hfilter, List.map_singleton, List.map_eq_singleton_iff] at hmap
  obtain ⟨s, hs, hsubnet⟩ := hmap
  rw [hnet] at hsubnet
  exact ⟨s, net, ip, hs, hsubnet, hip, hin⟩

/-- A catalog that passes the checks is rendered without a second promise exactly if it is unambiguous. -/
theorem promises_iff (c : Catalog) (h : c.validate = .ok ()) : PromisesOnce c (keaSubnets c) ↔ Unambiguous c := by
  have hkeys : ∀ {γ : Type} (f : KeaReservation → γ), (((keaSubnets c).flatMap (·.reservations)).map f).Nodup ↔
      (∀ r ∈ c.reservations, c.enabledNetworks.countP (·.name = r.network) ≤ 1) ∧
        ((c.reservations.filter c.served).map fun r => f (keaReservation r)).Nodup := by
    intro γ f
    rw [reservations_keaSubnets, List.map_map, nodup_flatMap_iff]
    rfl
  have hgateways : (∀ s ∈ keaSubnets c, ∀ r ∈ s.reservations, s.gateway ≠ some (parseAddress r.ipAddress)) ↔
      ∀ n ∈ c.enabledNetworks, ∀ r ∈ c.reservations, r.network = n.name →
        parseAddress n.gateway ≠ parseAddress r.ipAddress := by
    refine forall_keaSubnets fun n i => ?_
    rw [reservations_subnet, gateway_subnet, List.forall_mem_map]
    simp [keaReservation]
  have hpools : (∀ s ∈ keaSubnets c, s.pools.Pairwise AddressPool.Apart ∧ ∀ p ∈ s.pools, ∀ g ∈ s.gateway, ¬p.Has g) ↔
      ∀ n ∈ c.enabledNetworks, n.pools.Pairwise AddressPool.Apart ∧ ∀ p ∈ n.pools, ¬p.Has (parseAddress n.gateway) := by
    refine forall_keaSubnets fun n i => ?_
    simp
  constructor
  · intro hp
    obtain ⟨hnames, haddr⟩ := (hkeys _).mp hp.addresses
    exact ⟨hnames, haddr, ((hkeys _).mp hp.hardware).2, hgateways.mp hp.gateways, hpools.mp hp.pools⟩
  · intro hu
    refine ⟨(hkeys _).mpr ⟨hu.names, hu.addresses⟩, (hkeys _).mpr ⟨hu.names, hu.hardware⟩, hgateways.mpr hu.gateways,
      hpools.mpr hu.pools, fun r hr n hn hdhcp => ?_⟩
    exact placed_of_names h hr hn hdhcp (hu.names r hr)

def smallOffice (reservations : List Reservation) : Catalog where
  upstream := ["9.9.9.9"]
  authoritative := "127.0.0.1:5300"
  networks := [⟨"lan", "eth0", "10.0.0.0/24", "10.0.0.1", "home.arpa", ["10.0.0.1"],
    [⟨"10.0.0.100", "10.0.0.199"⟩], true, 1800,
    "", ""⟩]
  reservations := reservations
  records := []

def printer : Reservation := ⟨"lan", "02:00:00:00:00:01", "10.0.0.20", "printer"⟩

def scanner : Reservation := ⟨"lan", "02:00:00:00:00:02", "10.0.0.20", "scanner"⟩

theorem promises_small_office : PromisesOnce (smallOffice [printer]) (keaSubnets (smallOffice [printer])) := by
  refine (promises_iff _ (by decide +kernel)).mpr
    ⟨by decide +kernel, by decide +kernel, by decide +kernel, by decide +kernel, ?_⟩
  intro n hn
  obtain rfl : n = _ := List.mem_singleton.mp hn
  refine ⟨List.pairwise_singleton _ _, ?_⟩
  rintro p hp ⟨start, stop, a, hstart, hstop, hip, hle, _⟩
  obtain rfl : p = _ := List.mem_singleton.mp hp
  have hgateway : (.ok 167772161 : Except String Nat) = .ok a := hip
  have hfirst : (.ok 167772260 : Except String Nat) = .ok start := hstart
  cases hgateway
  cases hfirst
  exact absurd hle (by decide)

/-- Two accepted writes give two machines one address. -/
theorem one_address_for_two_machines :
    (smallOffice []).putReservation printer = .ok (smallOffice [printer]) ∧
    (smallOffice [printer]).putReservation scanner = .ok (smallOffice [printer, scanner]) ∧
    ¬PromisesOnce (smallOffice [printer, scanner]) (keaSubnets (smallOffice [printer, scanner])) := by
  refine ⟨by decide +kernel, by decide +kernel, fun h => ?_⟩
  exact absurd h.addresses (by decide +kernel)

end Kcore.Provisioning
