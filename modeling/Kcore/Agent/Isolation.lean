import Mathlib.Data.String.Basic
import Kcore.Agent.Placement
import Kcore.Lib.Run
import Kcore.Lib.Sorting

/-!
# Powering off guests of an isolated host

A host that has lost the controller stops its Ceph guests once two iterations of the supervisor in a row have found
the storage unreachable or the host on the blocklist. The host is taken to be on the blocklist if one of its addresses
occurs anywhere in a line of the listing, so the address of another host may do. `stops_on_fencing` says for which runs
every stop rests on two readings that tell of this host.
-/

namespace Kcore.Agent

open Machine

/-! ### Readings -/

inductive StorageView where
  | reachableNotFenced
  | reachableFenced
  | unreachable
  deriving DecidableEq

inductive IsolationResponse where
  | powerOff
  | leaveRunning
  deriving DecidableEq

def parseIsolationResponse (raw : String) : IsolationResponse :=
  if toAsciiLowercase (trim raw) = "leaverunning" then .leaveRunning else .powerOff

/-- What follows each `inet` or `inet6` among the words of a line, up to a slash. -/
def inetAddrs : List String → List String
  | tok :: addr :: rest =>
    if tok = "inet" ∨ tok = "inet6" then
      let ip := (splitAll addr '/').headD ""
      if ip ≠ "" ∧ ip ≠ "127.0.0.1" ∧ ip ≠ "::1" then ip :: inetAddrs rest else inetAddrs rest
    else inetAddrs (addr :: rest)
  | _ => []

/-- The addresses in the output of `ip -o addr show`, none if the command fails. -/
def localHostAddrs (output : Option String) : List String :=
  match output with
  | none => []
  | some text =>
    (((lines text).flatMap fun line => inetAddrs (splitWhitespace line)).insertionSort (· ≤ ·)).destutter (· ≠ ·)

def blocklistContainsHost (listing : String) (hosts : List String) : Bool :=
  let hosts := (hosts.map trim).filter (· ≠ "")
  (lines listing).any fun line => hosts.any fun host => textContains (trim line) host

def storageView (query : Option String) (hosts : List String) : StorageView :=
  match query with
  | none => .unreachable
  | some listing => if blocklistContainsHost listing hosts then .reachableFenced else .reachableNotFenced

def confirmedStorageView (streak : Nat) (view : StorageView) : Nat × StorageView :=
  if view = .reachableNotFenced then (0, view)
  else
    let streak := min (streak + 1) 4294967295
    if 2 ≤ streak then (streak, view) else (streak, .reachableNotFenced)

def isolationDue (lastOk : Option Nat) (now timeout : Nat) : Bool :=
  match lastOk with
  | some ok => decide (timeout ≤ now - ok)
  | none => false

/-! ### Actions -/

def isolationActions (localVms : List LocalVm) (view : StorageView) (response : IsolationResponse) : List HostAction :=
  if response = .leaveRunning then []
  else if view = .reachableNotFenced then []
  else (localVms.filter (·.backend = "ceph")).map fun vm => .stop vm.name

def monitorDue (now hb after lastRestart : Int) : Bool :=
  if after < 30 ∨ hb ≤ 0 then false
  else if 0 < lastRestart ∧ now - lastRestart < after then false
  else decide (after ≤ now - hb)

def timeOf (times : List (String × Int)) (name : String) : Int := ((times.find? (·.1 = name)).map (·.2)).getD 0

def monitorActions (monitors heartbeats : List (String × Int)) (now : Int) (lastRestart : List (String × Int)) :
    List HostAction :=
  (monitors.filter fun m => monitorDue now (timeOf heartbeats m.1) m.2 (timeOf lastRestart m.1)).map fun m =>
    .restart m.1

/-- What one iteration of the supervisor reads. Times are counted from one moment on. -/
structure Iteration where
  placementText : String
  assigned : List String
  fenceVms : List String
  confirmed : Bool
  placementDue : Bool
  started : Nat
  now : Nat
  placementTimeout : Nat
  lastOk : Option Nat
  isolationTimeout : Nat
  isolationResponse : String
  addrOutput : Option String
  blocklist : Option String
  monitors : List (String × Int)
  heartbeats : List (String × Int)
  lastRestart : List (String × Int)
  nowUnix : Int

namespace Iteration

variable (it : Iteration)

def localVms : List LocalVm := parsePlacementFile it.placementText

def isolated : Bool := isolationDue it.lastOk it.now it.isolationTimeout

def hosts : List String := localHostAddrs it.addrOutput

def storage (streak : Nat) : Nat × StorageView :=
  if it.isolated && it.localVms.any (·.backend = "ceph") then
    confirmedStorageView streak (storageView it.blocklist it.hosts)
  else (0, .reachableNotFenced)

def supervisorActions (storage : StorageView) : List HostAction :=
  let placement := if it.placementDue then
      placementActions it.localVms it.assigned it.fenceVms it.confirmed
        (decide (it.placementTimeout ≤ it.now - it.started))
    else []
  let isolation := if it.isolated then
      isolationActions it.localVms storage (parseIsolationResponse it.isolationResponse)
    else []
  placement ++ isolation ++ monitorActions it.monitors it.heartbeats it.nowUnix it.lastRestart

end Iteration

structure Supervisor where
  streak : Nat
  before : Option Iteration

def Supervisor.start : Supervisor := ⟨0, none⟩

def Supervisor.step (s : Supervisor) (it : Iteration) : Supervisor := ⟨(it.storage s.streak).1, some it⟩

def Supervisor.actions (s : Supervisor) (it : Iteration) : List HostAction :=
  it.supervisorActions (it.storage s.streak).2

/-! ### What a stop is to rest on -/

/-- `entity_addr_host`: the host part of an address with port and nonce. -/
def entityAddrHost (addr : String) : String :=
  let addr := trim addr
  let addr := ((stripPrefix addr "v1:").or (stripPrefix addr "v2:")).getD addr
  match stripPrefix addr "[" with
  | some rest => (splitAll rest ']').headD ""
  | none =>
    let withoutNonce := (splitAll addr '/').headD addr
    ((rsplitOnce withoutNonce ':').map (·.1)).getD withoutNonce

/-- The address part of the entry on a line: its first word, where a range is marked by `cidr:`. -/
def entryAddress (line : String) : Option String :=
  (splitWhitespace line).head?.map fun token => entityAddrHost ((stripPrefix token "cidr:").getD token)

def Listed (listing : String) (hosts : List String) : Prop :=
  ∃ line ∈ lines listing, ∃ host ∈ hosts, entryAddress line = some host

def Iteration.Evidence (it : Iteration) : Prop :=
  it.isolated = true ∧ (it.blocklist = none ∨ ∃ listing, it.blocklist = some listing ∧ Listed listing it.hosts)

def StopsOnEvidence (s : Supervisor) (it : Iteration) : Prop :=
  ∀ name, .stop name ∈ s.actions it → it.Evidence ∧ ∃ earlier, s.before = some earlier ∧ earlier.Evidence

/-- No address of the host occurs in the listing without an entry for one. -/
def Iteration.Exact (it : Iteration) : Prop :=
  it.isolated = true → it.localVms.any (·.backend = "ceph") = true → ∀ listing, it.blocklist = some listing →
    blocklistContainsHost listing it.hosts = true → Listed listing it.hosts

/-! ### One iteration -/

section

variable {s : Supervisor} {it : Iteration} {name : String}

theorem stop_not_mem_maskFenced (assigned : List String) {actions : List HostAction} (h : .stop name ∉ actions)
    (fenced : String) : .stop name ∉ maskFenced assigned actions fenced := by
  unfold maskFenced
  dsimp only
  split_ifs
  · exact h
  · simpa using h
  · exact h

theorem stop_not_mem_placementActions (localVms : List LocalVm) (assigned fenceVms : List String)
    (confirmed timedOut : Bool) : .stop name ∉ placementActions localVms assigned fenceVms confirmed timedOut := by
  have hlocal : .stop name ∉ localVms.map (localAction assigned confirmed) := by
    simp only [List.mem_map, not_exists, not_and, localAction]
    intro vm _
    split_ifs <;> simp
  have hfenced : ∀ actions, .stop name ∉ actions → .stop name ∉ fenceVms.foldl (maskFenced assigned) actions := by
    induction fenceVms with
    | nil => exact fun _ h => h
    | cons fenced fenceVms ih =>
      intro actions h
      rw [List.foldl_cons]
      have hnext := stop_not_mem_maskFenced assigned h fenced
      exact ih _ hnext
  unfold placementActions
  split
  · simp
  · cases confirmed
    · simpa using hlocal
    · simpa using hfenced _ hlocal

theorem storage_cases (it : Iteration) (streak : Nat) :
    (it.storage streak = (0, .reachableNotFenced)) ∨
    (it.isolated = true ∧ it.localVms.any (·.backend = "ceph") = true ∧
      storageView it.blocklist it.hosts ≠ .reachableNotFenced ∧
      ((it.storage streak).2 ≠ .reachableNotFenced → 1 ≤ streak)) := by
  unfold Iteration.storage
  split
  · rename_i hlook
    rw [Bool.and_eq_true] at hlook
    unfold confirmedStorageView
    split
    · rename_i hview
      exact Or.inl (by rw [hview])
    · rename_i hview
      refine Or.inr ⟨hlook.1, hlook.2, hview, ?_⟩
      dsimp only
      split
      · intro _
        omega
      · exact fun h => absurd rfl h
  · exact Or.inl rfl

theorem stop_mem_actions (h : .stop name ∈ s.actions it) : (it.storage s.streak).2 ≠ .reachableNotFenced := by
  intro hview
  rw [Supervisor.actions, hview, Iteration.supervisorActions] at h
  have hisolation : ∀ response, isolationActions it.localVms .reachableNotFenced response = [] := by
    intro response
    unfold isolationActions
    split_ifs <;> simp_all
  simp only [hisolation, ite_self, List.append_nil, List.mem_append] at h
  rcases h with h | h
  · split at h
    · exact stop_not_mem_placementActions _ _ _ _ _ h
    · simp at h
  · simp [monitorActions] at h

theorem Iteration.Exact.evidence (hexact : it.Exact) (hiso : it.isolated = true)
    (hceph : it.localVms.any (·.backend = "ceph") = true)
    (hview : storageView it.blocklist it.hosts ≠ .reachableNotFenced) : it.Evidence := by
  refine ⟨hiso, ?_⟩
  cases hq : it.blocklist with
  | none => exact Or.inl rfl
  | some listing =>
    refine Or.inr ⟨listing, rfl, hexact hiso hceph listing hq ?_⟩
    by_contra hno
    exact hview (by simp [storageView, hq, hno])

def Supervisor.Grounded (s : Supervisor) : Prop := 1 ≤ s.streak → ∃ earlier, s.before = some earlier ∧ earlier.Evidence

theorem Supervisor.Grounded.step (hexact : it.Exact) : (s.step it).Grounded := by
  intro hstreak
  refine ⟨it, rfl, ?_⟩
  rcases storage_cases it s.streak with heq | ⟨hiso, hceph, hview, -⟩
  · rw [Supervisor.step, heq] at hstreak
    exact absurd hstreak (Nat.not_succ_le_zero 0)
  · exact hexact.evidence hiso hceph hview

theorem Supervisor.Grounded.stops (h : s.Grounded) (hexact : it.Exact) : StopsOnEvidence s it := by
  intro name hstop
  have hview := stop_mem_actions hstop
  rcases storage_cases it s.streak with heq | ⟨hiso, hceph, hseen, hstreak⟩
  · rw [heq] at hview
    exact absurd rfl hview
  · exact ⟨hexact.evidence hiso hceph hseen, h (hstreak hview)⟩

end

/-- In a run whose listings hold no address of the host but in entries for it, guests are stopped on evidence only. -/
theorem stops_on_fencing (its : List Iteration) (hexact : ∀ it ∈ its, it.Exact) :
    Each Supervisor.step StopsOnEvidence Supervisor.start its := by
  have hrun : ∀ s : Supervisor, s.Grounded → (∀ it ∈ its, it.Exact) → Each Supervisor.step StopsOnEvidence s its := by
    clear hexact
    induction its with
    | nil => exact fun _ _ _ => trivial
    | cons it its ih =>
      intro s hs hexact
      have hit := hexact it List.mem_cons_self
      exact ⟨hs.stops hit, ih _ (Supervisor.Grounded.step hit) fun a ha => hexact a (List.mem_cons_of_mem _ ha)⟩
  exact hrun _ (fun h => absurd h (by decide)) hexact

def cutOff (blocklist : Option String) : Iteration where
  placementText := "web ceph"
  assigned := ["web"]
  fenceVms := []
  confirmed := true
  placementDue := false
  started := 0
  now := 100
  placementTimeout := 60
  lastOk := some 10
  isolationTimeout := 60
  isolationResponse := "powerOff"
  addrOutput := some "2: eth0 inet 10.0.0.1/24"
  blocklist := blocklist
  monitors := []
  heartbeats := []
  lastRestart := []
  nowUnix := 0

/-- First the query fails, and then the listing has an entry for the host. -/
theorem unreachable_storage_stops :
    .stop "web" ∈ (Supervisor.start.step (cutOff none)).actions (cutOff (some "10.0.0.1:0/1")) ∧
    Each Supervisor.step StopsOnEvidence Supervisor.start [cutOff none, cutOff (some "10.0.0.1:0/1")] := by
  refine ⟨by decide, stops_on_fencing _ ?_⟩
  intro it hit _ _ listing hl _
  obtain rfl | rfl : it = cutOff none ∨ it = cutOff (some "10.0.0.1:0/1") := by simpa using hit
  · cases hl
  · obtain rfl : "10.0.0.1:0/1" = listing := Option.some.inj hl
    exact ⟨"10.0.0.1:0/1", by decide, "10.0.0.1", by decide, by decide⟩

/-- The listing has an entry for 10.0.0.11 only. -/
theorem other_host_on_blocklist_stops :
    ¬ Each Supervisor.step StopsOnEvidence Supervisor.start
      [cutOff (some "10.0.0.11:0/1"), cutOff (some "10.0.0.11:0/1")] := by
  rintro ⟨-, hstop, -⟩
  obtain ⟨⟨-, hnone | ⟨listing, heq, line, hline, host, hhost, haddr⟩⟩, -⟩ := hstop "web" (by decide)
  · cases hnone
  · obtain rfl : _ = listing := Option.some.inj heq
    have hlines : lines "10.0.0.11:0/1" = ["10.0.0.11:0/1"] := by decide
    have hhosts : (cutOff (some "10.0.0.11:0/1")).hosts = ["10.0.0.1"] := by decide
    simp only [hlines, hhosts, List.mem_singleton] at hline hhost
    subst hline hhost
    revert haddr
    decide

end Kcore.Agent
