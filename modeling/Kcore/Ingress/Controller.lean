import Kcore.Ingress.Spec
import Kcore.Kubernetes.Colocated
import Kcore.Json
import Kcore.Lib.SortedMap
import Mathlib.Data.String.Basic

/-!
# The ingress controller

A gateway can serve the `Ingress` objects of Kubernetes clusters. A pass asks each of its clusters in turn for the
objects, stores a route for each of their rules, and deletes the routes of the cluster that no rule gives any more.

A route is stored under a name made of the cluster, the namespace, the object and the number of the rule, in which a
dash stands for every character that is not a letter or a digit: the objects `a-b/c` and `a/b-c` get one name. The
object that is stored first keeps it, and its route is not deleted as long as the other one gives a route of that name.
The routes to delete are those whose owner starts with the name of the cluster, which may contain a slash.
-/

namespace Kcore

def Value.index (v : Value) (key : String) : Value := (v.get key).getD .null

def Value.path (v : Value) (keys : List String) : Value := keys.foldl Value.index v

namespace Ingress.Controller

/-! ### The routes of an object -/

structure SynthRoute where
  name : String
  spec : RouteSpec
  deriving DecidableEq

structure Synthesised where
  owner : String
  routes : List SynthRoute
  warnings : List String

def ownerOf (cluster namespace_ name : String) : String :=
  "k8s:" ++ cluster ++ "/" ++ namespace_ ++ "/" ++ name

def isKcoreIngress (ing : Value) : Bool :=
  (ing.path ["spec", "ingressClassName"]).asStr == some "kcore" ||
    (ing.path ["metadata", "annotations", "kubernetes.io/ingress.class"]).asStr == some "kcore"

def namespaceOf (ing : Value) : String := (ing.path ["metadata", "namespace"]).asStr.getD "default"

def nameOf (ing : Value) : Option String := (ing.path ["metadata", "name"]).asStr

def requireName (ing : Value) : Except String String :=
  match nameOf ing with
  | some name => .ok name
  | none => .error "ingress has no name"

def backendPort (i : Nat) (port : Value) : Except String PortRef :=
  match port.index "name", port.index "number" with
  | .string n, _ => .ok (.name n)
  | _, .number (.int n) =>
    if 0 ≤ n ∧ n < 65536 then .ok (.number (UInt16.ofNat n.toNat)) else .error s!"rules[{i}]: invalid port number"
  | _, .number (.float _) => .error s!"rules[{i}]: invalid port number"
  | _, _ => .error s!"rules[{i}]: backend service has no port"

def trimEndSlashes (s : String) : String := String.ofList (s.toList.reverse.dropWhile (· = '/')).reverse

def addPath (cluster namespace_ : String) (i : Nat) (acc : List PathSpec × List String) (p : Value) :
    Except String (List PathSpec × List String) := do
  let svc := p.path ["backend", "service"]
  let service ← match (svc.index "name").asStr with
    | some service => .ok service
    | none => .error s!"rules[{i}]: only Service backends are supported"
  let port ← backendPort i (svc.index "port")
  let path := ((p.index "path").asStr.filter (· ≠ "")).getD "/"
  let pathPrefix := if path = "/" then "/" else trimEndSlashes path
  let warnings := acc.2 ++
    if (p.index "pathType").asStr = some "Exact" then [s!"rules[{i}]: pathType Exact on {path} is served as a prefix"]
    else []
  if acc.1.any (·.pathPrefix = pathPrefix) then return (acc.1, warnings)
  return (acc.1 ++ [
    { pathPrefix := pathPrefix
      backends := [.kubernetes cluster namespace_ service port .loadBalancer]
      loadBalancing := ⟨"round_robin", none⟩
      healthCheck := none
      backendTls := none
      proxyProtocol := false }], warnings)

def rateLimitOf (ing : Value) : Except String (Option UInt32) :=
  match (ing.path ["metadata", "annotations", "ingress.kcore.io/rate-limit"]).asStr with
  | none => .ok none
  | some r => match parseUnsigned 4294967296 (trim r) with
    | some n => .ok (some (UInt32.ofNat n))
    | none => .error "ingress.kcore.io/rate-limit must be a number of requests per minute"

section Digest

-- The first four bytes of the SHA-256 digest of a text, in hexadecimal.
variable (digest : String → String)

def routeName (owner : String) (index : Nat) : String :=
  let base := (trimStartMatches owner "k8s:").toList.map fun c => if c.isAlphanum then c.toLower else '-'
  let suffix := if index = 0 then "" else s!"-r{index}"
  let name := "k8s-" ++ String.ofList base ++ suffix
  if name.length ≤ 63 then name else String.ofList (name.toList.take 54) ++ "-" ++ digest s!"{owner}#{index}"

def addRule (cluster gateway : String) (ing : Value) (rateLimit : Option UInt32) (out : Synthesised)
    (rule : Value × Nat) :
    Except String Synthesised := do
  let i := rule.2
  let host := trim ((rule.1.index "host").asStr.getD "")
  if host = "" then
    return { out with warnings := out.warnings ++ [s!"rules[{i}] has no host and is skipped"] }
  let (paths, warnings) ← ((rule.1.path ["http", "paths"]).asArray.getD []).foldlM
    (addPath cluster (namespaceOf ing) i) ([], out.warnings)
  if paths = [] then
    return { out with warnings := warnings ++ [s!"rules[{i}] ({host}) has no paths and is skipped"] }
  let annotated := fun key => (ing.path ["metadata", "annotations", key]).asStr
  return { out with
    warnings := warnings
    routes := out.routes ++ [
      { name := routeName digest out.owner out.routes.length
        spec :=
          { gateway := gateway
            kind := .http
            hosts := [host]
            paths := paths
            port := none
            backends := []
            proxyProtocol := false
            rateLimit := rateLimit
            issuer := "acme"
            waf := ⟨annotated "ingress.kcore.io/waf-policy", annotated "ingress.kcore.io/waf-mode", []⟩
            headers := ⟨false, []⟩
            redirectHttp := true } }] }

def ingressToRoutes (cluster gateway : String) (ing : Value) : Except String Synthesised := do
  let name ← requireName ing
  let rateLimit ← rateLimitOf ing
  let backend := if (ing.path ["spec", "defaultBackend"]).isObject then
    ["spec.defaultBackend is ignored: a route needs a hostname"] else []
  let tls := if ((ing.path ["spec", "tls"]).asArray.getD []).isEmpty then []
    else ["spec.tls is ignored: the gateway obtains certificates from ACME"]
  let out ← ((ing.path ["spec", "rules"]).asArray.getD []).zipIdx.foldlM (addRule digest cluster gateway ing rateLimit)
    ⟨ownerOf cluster (namespaceOf ing) name, [], backend ++ tls⟩
  if out.routes = [] ∧ out.warnings = [] then
    return { out with warnings := ["ingress has no usable rules"] }
  return out

/-! ### The pass -/

structure RouteRow where
  generation : Int
  spec : RouteSpec
  owner : String

abbrev Routes : Type := SortedMap String RouteRow

def upsertSynthRoute (routes : Routes) (owner : String) (r : SynthRoute) : Except String Routes :=
  match routes.get? r.name with
  | none => .ok (routes.insert r.name ⟨1, r.spec, owner⟩)
  | some e =>
    if e.owner ≠ "" ∧ e.owner ≠ owner then .error s!"route {r.name} belongs to {e.owner}"
    else if e.owner = "" then .error s!"route {r.name} exists and is not managed by Kubernetes"
    else if e.spec = r.spec then .ok routes
    else .ok (routes.insert r.name ⟨e.generation + 1, r.spec, owner⟩)

def given (gateway cluster : String) (items : List Value) : List (String × SynthRoute) :=
  ((items.filter isKcoreIngress).filterMap fun ing => (ingressToRoutes digest cluster gateway ing).toOption).flatMap
    fun s => s.routes.map fun r => (s.owner, r)

def RouteRow.listed (gateway : String) (row : RouteRow) : Bool := gateway == "" || row.spec.gateway == gateway

def ownedBy (cluster owner : String) : Bool := startsWith owner ("k8s:" ++ cluster ++ "/")

def syncCluster (gateway : String) (routes : Routes) (cluster : String) (items : List Value) : Routes :=
  let wanted := given digest gateway cluster items
  let stored := wanted.foldl (fun routes w => (upsertSynthRoute routes w.1 w.2).toOption.getD routes) routes
  -- Routes whose Ingress (or rule) no longer exists.
  stored.filter fun name row => !(row.listed gateway && ownedBy cluster row.owner) || wanted.any (·.2.name == name)

/-- `sync_ingresses`; a cluster that does not answer is left out. -/
def syncIngresses (gateway : String) (spec : GatewaySpec) (answers : String → Option (List Value)) (routes : Routes) :
    Routes :=
  match spec.kubernetes.filter (·.ingressController) with
  | none => routes
  | some k => k.clusters.foldl (fun routes cluster =>
      match answers cluster with
      | none => routes
      | some items => syncCluster digest gateway routes cluster items) routes

/-! ### The property -/

/-- The stored routes of the gateway that objects of the clusters own are the routes that the objects give. -/
def Mirrored (gateway : String) (clusters : List String) (items : String → List Value) (routes : Routes) : Prop :=
  ∀ w : String × SynthRoute,
    (∃ row ∈ routes.get? w.2.name, row.owner = w.1 ∧ row.spec = w.2.spec ∧ row.listed gateway = true ∧
      ∃ c ∈ clusters, ownedBy c w.1 = true) ↔
    ∃ c ∈ clusters, w ∈ given digest gateway c (items c)

def before (clusters : List String) (c : String) : List String := clusters.take (clusters.idxOf c)

def after (clusters : List String) (c : String) : List String := clusters.drop (clusters.idxOf c + 1)

/-- No two routes that are given have one name, a stored route of that name has the same owner or belongs to a cluster
that is asked before, and the owner does not look like one of a cluster that is asked later. -/
structure Undisturbed (gateway : String) (clusters : List String) (items : String → List Value) (routes : Routes) :
    Prop where
  distinct : ∀ c ∈ clusters, ∀ w ∈ given digest gateway c (items c), ∀ c' ∈ clusters,
    ∀ w' ∈ given digest gateway c' (items c'), w.2.name = w'.2.name → w = w'
  free : ∀ c ∈ clusters, ∀ w ∈ given digest gateway c (items c), ∀ row ∈ routes.get? w.2.name,
    row.owner = w.1 ∨ row.listed gateway = true ∧ ∃ h ∈ before clusters c, ownedBy h row.owner = true
  kept : ∀ c ∈ clusters, ∀ w ∈ given digest gateway c (items c), ∀ h ∈ after clusters c, ownedBy h w.1 = false

def PlainNames (ing : Value) : Prop := '/' ∉ (namespaceOf ing).toList ∧ ∀ name ∈ nameOf ing, '/' ∉ name.toList

/-! ### Routes that are given -/

section Given

variable {digest : String → String} {gateway cluster cluster' : String} {ing : Value}

theorem gateway_of_addRule {rateLimit : Option UInt32} {out out' : Synthesised} {rule : Value × Nat}
    (h : addRule digest cluster gateway ing rateLimit out rule = .ok out')
    (hout : ∀ r ∈ out.routes, r.spec.gateway = gateway) :
    out'.owner = out.owner ∧ ∀ r ∈ out'.routes, r.spec.gateway = gateway := by
  unfold addRule at h
  dsimp only at h
  split_ifs at h with hhost
  · cases h
    exact ⟨rfl, hout⟩
  · obtain ⟨⟨paths, warnings⟩, -, h⟩ := Checks.bind_eq_ok.mp h
    dsimp only at h
    split_ifs at h with hpaths
    · cases h
      exact ⟨rfl, hout⟩
    · cases h
      refine ⟨rfl, fun r hr => ?_⟩
      rcases List.mem_append.mp hr with hr | hr
      · exact hout r hr
      · rw [List.mem_singleton.mp hr]

theorem owner_of_ingressToRoutes {s : Synthesised} (h : ingressToRoutes digest cluster gateway ing = .ok s) :
    (∃ name ∈ nameOf ing, s.owner = ownerOf cluster (namespaceOf ing) name) ∧
      ∀ r ∈ s.routes, r.spec.gateway = gateway := by
  obtain ⟨name, hname, h⟩ := Checks.bind_eq_ok.mp h
  obtain ⟨rateLimit, -, h⟩ := Checks.bind_eq_ok.mp h
  obtain ⟨out, hout, h⟩ := Checks.bind_eq_ok.mp h
  have hsome : nameOf ing = some name := by
    unfold requireName at hname
    cases hn : nameOf ing with
    | none =>
      rw [hn] at hname
      cases hname
    | some n =>
      rw [hn] at hname
      cases hname
      rfl
  have hrules := Checks.foldlM_keeps (P := fun s : Synthesised => s.owner = ownerOf cluster (namespaceOf ing) name ∧
      ∀ r ∈ s.routes, r.spec.gateway = gateway)
    (fun s rule s' hs hstep =>
      ⟨(gateway_of_addRule hstep hs.2).1.trans hs.1, (gateway_of_addRule hstep hs.2).2⟩)
    ⟨rfl, fun r hr => absurd hr List.not_mem_nil⟩ hout
  have hs : s.owner = out.owner ∧ s.routes = out.routes := by
    split_ifs at h <;> cases h <;> exact ⟨rfl, rfl⟩
  rw [hs.1, hs.2]
  exact ⟨⟨name, hsome, hrules.1⟩, hrules.2⟩

theorem owner_of_given {items : List Value} {w : String × SynthRoute} (h : w ∈ given digest gateway cluster items) :
    (∃ ing ∈ items, ∃ name ∈ nameOf ing, w.1 = ownerOf cluster (namespaceOf ing) name) ∧ w.2.spec.gateway = gateway := by
  obtain ⟨s, hs, hw⟩ := List.mem_flatMap.mp h
  obtain ⟨r, hr, rfl⟩ := List.mem_map.mp hw
  obtain ⟨ing, hing, hroutes⟩ := List.mem_filterMap.mp hs
  have hok : ingressToRoutes digest cluster gateway ing = .ok s := by
    cases hresult : ingressToRoutes digest cluster gateway ing with
    | error e =>
      rw [hresult] at hroutes
      cases hroutes
    | ok s' =>
      rw [hresult] at hroutes
      cases hroutes
      rfl
  obtain ⟨⟨name, hname, howner⟩, hgateway⟩ := owner_of_ingressToRoutes hok
  exact ⟨⟨ing, (List.mem_filter.mp hing).1, name, hname, howner⟩, hgateway r hr⟩

theorem ownedBy_ownerOf (cluster namespace_ name : String) :
    ownedBy cluster (ownerOf cluster namespace_ name) = true := by
  refine List.isPrefixOf_iff_prefix.mpr ⟨(namespace_ ++ "/" ++ name).toList, ?_⟩
  simp [ownerOf]

theorem append_sep_inj {c : Char} {a a' b b' : List Char} (hb : c ∉ b) (hb' : c ∉ b')
    (h : a ++ c :: b = a' ++ c :: b') :
    a = a' := by
  -- one side is longer by `m`, and if `m` is not empty, a tail contains the other side's separator
  rcases List.append_eq_append_iff.mp h with ⟨m, rfl, hm⟩ | ⟨m, rfl, hm⟩ <;> cases m with
  | nil => simp
  | cons x m =>
    simp only [List.cons_append, List.cons.injEq] at hm
    simp [hm.2] at hb hb'

theorem cluster_of_owner {ns ns' name name' : String} (hns : '/' ∉ ns.toList) (hns' : '/' ∉ ns'.toList)
    (hname : '/' ∉ name.toList) (hname' : '/' ∉ name'.toList)
    (h : ownerOf cluster ns name = ownerOf cluster' ns' name') :
    cluster = cluster' := by
  have hchars := congrArg String.toList h
  simp only [ownerOf, String.toList_append] at hchars
  have hslash : "/".toList = ['/'] := rfl
  rw [hslash, List.append_assoc, List.append_assoc _ _ name'.toList, List.singleton_append,
    List.singleton_append] at hchars
  have hhead := append_sep_inj hname hname' hchars
  rw [List.append_assoc, List.append_assoc _ _ ns'.toList, List.singleton_append, List.singleton_append] at hhead
  exact String.toList_inj.mp (List.append_cancel_left (append_sep_inj hns hns' hhead))

theorem cluster_of_given {items items' : List Value} {w w' : String × SynthRoute}
    (hitems : ∀ ing ∈ items, PlainNames ing) (hitems' : ∀ ing ∈ items', PlainNames ing)
    (hw : w ∈ given digest gateway cluster items) (hw' : w' ∈ given digest gateway cluster' items') (h : w.1 = w'.1) :
    cluster = cluster' := by
  obtain ⟨ing, hing, name, hname, howner⟩ := (owner_of_given hw).1
  obtain ⟨ing', hing', name', hname', howner'⟩ := (owner_of_given hw').1
  exact cluster_of_owner (hitems ing hing).1 (hitems' ing' hing').1 ((hitems ing hing).2 name hname)
    ((hitems' ing' hing').2 name' hname') (howner ▸ howner' ▸ h)

end Given

/-! ### The row of one name -/

def claim (w : String × SynthRoute) : Option RouteRow → Option RouteRow
  | none => some ⟨1, w.2.spec, w.1⟩
  | some e => if e.owner ≠ w.1 ∨ e.spec = w.2.spec then some e else some ⟨e.generation + 1, w.2.spec, w.1⟩

def keeps (gateway : String) (clusters : List String) (row : RouteRow) : Bool :=
  !(row.listed gateway && clusters.any (ownedBy · row.owner))

section Row

variable {digest : String → String} {gateway cluster : String} {clusters : List String} {items : String → List Value}
  {routes : Routes} {w : String × SynthRoute} {name : String}

theorem claim_claim (w : String × SynthRoute) (v : Option RouteRow) : claim w (claim w v) = claim w v := by
  cases v with
  | none => simp [claim]
  | some e =>
    simp only [claim]
    split_ifs with h
    · simp only [h, if_true]
    · simp

theorem get?_upsertSynthRoute (hw : w.1 ≠ "") :
    ((upsertSynthRoute routes w.1 w.2).toOption.getD routes).get? name =
      if name = w.2.name then claim w (routes.get? name) else routes.get? name := by
  by_cases hname : name = w.2.name
  · rw [if_pos hname, hname]
    unfold upsertSynthRoute
    cases hrow : routes.get? w.2.name with
    | none => simp [claim, Except.toOption, SortedMap.get?_insert]
    | some e =>
      by_cases howner : e.owner = w.1
      · by_cases hspec : e.spec = w.2.spec
        · simp [claim, howner, hspec, hw, hrow, Except.toOption]
        · simp [claim, howner, hspec, hw, Except.toOption, SortedMap.get?_insert]
      · have hkept : claim w (some e) = some e := by simp [claim, howner]
        rw [hkept]
        dsimp only
        split_ifs <;> simp_all [Except.toOption]
  · rw [if_neg hname]
    unfold upsertSynthRoute
    cases hrow : routes.get? w.2.name with
    | none => simp [Except.toOption, SortedMap.get?_insert, hname]
    | some e =>
      dsimp only
      split_ifs <;> simp [Except.toOption, SortedMap.get?_insert, hname]

/-- A list of routes in which only `w` has its name. -/
theorem get?_foldl_upsertSynthRoute {l : List (String × SynthRoute)} (howner : ∀ x ∈ l, x.1 ≠ "")
    (hl : ∀ x ∈ l, x.2.name = name → x = w) :
    (l.foldl (fun routes x => (upsertSynthRoute routes x.1 x.2).toOption.getD routes) routes).get? name =
      if l.any (·.2.name == name) then claim w (routes.get? name) else routes.get? name := by
  induction l generalizing routes with
  | nil => rfl
  | cons x l ih =>
    rw [List.foldl_cons, ih (fun y hy => howner y (List.mem_cons_of_mem x hy))
      (fun y hy => hl y (List.mem_cons_of_mem x hy)), get?_upsertSynthRoute (howner x List.mem_cons_self), List.any_cons]
    by_cases hx : x.2.name = name
    -- storing the route a second time changes nothing
    · obtain rfl := hl x List.mem_cons_self hx
      rw [if_pos hx.symm, claim_claim, ite_self]
      simp [hx]
    · have hbeq : (x.2.name == name) = false := by simpa using hx
      rw [if_neg (Ne.symm hx), hbeq, Bool.false_or]

theorem get?_foldl_of_ne {l : List (String × SynthRoute)} (howner : ∀ x ∈ l, x.1 ≠ "")
    (hl : ∀ x ∈ l, x.2.name ≠ name) :
    (l.foldl (fun routes x => (upsertSynthRoute routes x.1 x.2).toOption.getD routes) routes).get? name =
      routes.get? name := by
  cases l with
  | nil => rfl
  | cons x l =>
    rw [get?_foldl_upsertSynthRoute (w := x) howner fun y hy h => absurd h (hl y hy), if_neg]
    simpa using hl

theorem owner_ne_empty {items : List Value} (hw : w ∈ given digest gateway cluster items) : w.1 ≠ "" := by
  obtain ⟨ing, -, name, -, howner⟩ := (owner_of_given hw).1
  intro h
  have hchars := congrArg String.toList (howner.symm.trans h)
  simp [ownerOf] at hchars

theorem keeps_iff {row : RouteRow} : keeps gateway clusters row = true ↔
    ¬(row.listed gateway = true ∧ ∃ h ∈ clusters, ownedBy h row.owner = true) := by
  rw [keeps, Bool.not_eq_true', ← Bool.not_eq_true, Bool.and_eq_true, List.any_eq_true]

theorem get?_syncCluster_of_not_given {items : List Value}
    (h : ∀ x ∈ given digest gateway cluster items, x.2.name ≠ name) :
    (syncCluster digest gateway routes cluster items).get? name =
      (routes.get? name).filter (keeps gateway [cluster]) := by
  have hany : ((given digest gateway cluster items).any fun x => x.2.name == name) = false := by simpa using h
  unfold syncCluster
  rw [SortedMap.get?_filter, get?_foldl_of_ne (fun x hx => owner_ne_empty hx) h, hany]
  congr 1
  funext row
  simp [keeps]

theorem get?_syncCluster_of_given {items : List Value} (hw : w ∈ given digest gateway cluster items)
    (h : ∀ x ∈ given digest gateway cluster items, x.2.name = w.2.name → x = w) :
    (syncCluster digest gateway routes cluster items).get? w.2.name = claim w (routes.get? w.2.name) := by
  have hany : ((given digest gateway cluster items).any fun x => x.2.name == w.2.name) = true :=
    List.any_eq_true.mpr ⟨w, hw, by simp⟩
  unfold syncCluster
  rw [SortedMap.get?_filter, get?_foldl_upsertSynthRoute (fun x hx => owner_ne_empty hx) h, hany]
  cases claim w (routes.get? w.2.name) <;> simp [*]

theorem get?_syncClusters (h : ∀ c ∈ clusters, ∀ x ∈ given digest gateway c (items c), x.2.name ≠ name) :
    (clusters.foldl (fun routes c => syncCluster digest gateway routes c (items c)) routes).get? name =
      (routes.get? name).filter (keeps gateway clusters) := by
  induction clusters generalizing routes with
  | nil =>
    rw [List.foldl_nil]
    cases routes.get? name with
    | none => rfl
    | some row => exact (Option.filter_some_pos (by simp [keeps])).symm
  | cons c clusters ih =>
    rw [List.foldl_cons, ih fun c' hc' => h c' (List.mem_cons_of_mem c hc'),
      get?_syncCluster_of_not_given (h c List.mem_cons_self), Option.filter_filter]
    congr 1
    ext row
    simp only [keeps, List.any_cons, List.any_nil, Bool.or_false]
    cases row.listed gateway <;> cases ownedBy c row.owner <;> simp

def Settled (w : String × SynthRoute) (v : Option RouteRow) : Prop := ∃ row ∈ v, row.owner = w.1 ∧ row.spec = w.2.spec

theorem Settled.eq {w' : String × SynthRoute} {v : Option RouteRow} (h : Settled w v) (h' : Settled w' v)
    (hname : w.2.name = w'.2.name) : w = w' := by
  obtain ⟨row, hrow, howner, hspec⟩ := h
  obtain ⟨row', hrow', howner', hspec'⟩ := h'
  cases Option.some.inj (hrow.symm.trans hrow')
  obtain ⟨owner, route⟩ := w
  obtain ⟨owner', route'⟩ := w'
  rw [Prod.mk.injEq, SynthRoute.mk.injEq]
  exact ⟨howner.symm.trans howner', hname, hspec.symm.trans hspec'⟩

theorem settled_filter {row : RouteRow} (hgateway : w.2.spec.gateway = gateway) (howner : row.owner = w.1)
    (hspec : row.spec = w.2.spec) :
    Settled w ((some row).filter (keeps gateway clusters)) ↔ ∀ h ∈ clusters, ownedBy h w.1 = false := by
  have hkeeps : keeps gateway clusters row = true ↔ ∀ h ∈ clusters, ownedBy h w.1 = false := by
    simp [keeps, RouteRow.listed, howner, hspec, hgateway]
  rw [← hkeeps]
  constructor
  · rintro ⟨row', hrow', -⟩
    obtain ⟨hsame, hkept⟩ := Option.filter_eq_some_iff.mp hrow'
    cases hsame
    exact hkept
  · intro hkept
    exact ⟨row, Option.filter_eq_some_iff.mpr ⟨rfl, hkept⟩, howner, hspec⟩

theorem claim_own {e : RouteRow} (howner : e.owner = w.1) :
    ∃ row : RouteRow, claim w (some e) = some row ∧ row.owner = w.1 ∧ row.spec = w.2.spec := by
  by_cases hspec : e.spec = w.2.spec
  · exact ⟨e, by simp [claim, hspec], howner, hspec⟩
  · exact ⟨⟨e.generation + 1, w.2.spec, w.1⟩, by simp [claim, howner, hspec], rfl, rfl⟩

theorem settled_claim (hgateway : w.2.spec.gateway = gateway) (v : Option RouteRow) :
    Settled w ((claim w v).filter (keeps gateway clusters)) ↔
      (∀ row ∈ v, row.owner = w.1) ∧ ∀ h ∈ clusters, ownedBy h w.1 = false := by
  cases v with
  | none =>
    rw [claim, settled_filter hgateway rfl rfl]
    simp
  | some e =>
    by_cases howner : e.owner = w.1
    · obtain ⟨row, hclaim, hrowOwner, hrowSpec⟩ := claim_own howner
      rw [hclaim, settled_filter hgateway hrowOwner hrowSpec]
      simp [howner]
    · -- The row of another owner stays or is deleted, and is never the one of the route.
      have hclaim : claim w (some e) = some e := by simp [claim, howner]
      rw [hclaim]
      constructor
      · rintro ⟨row, hrow, hrowOwner, -⟩
        cases (Option.filter_eq_some_iff.mp hrow).1
        exact absurd hrowOwner howner
      · intro h
        exact absurd (h.1 e rfl) howner

theorem before_append_after {c : String} (hc : c ∈ clusters) :
    before clusters c ++ c :: after clusters c = clusters := by
  have hlt := List.idxOf_lt_length_of_mem hc
  have hdrop : clusters.drop (clusters.idxOf c) = c :: clusters.drop (clusters.idxOf c + 1) := by
    rw [List.drop_eq_getElem_cons hlt, List.getElem_idxOf hlt]
  rw [before, after, ← hdrop, List.take_append_drop]

theorem settled_iff {c : String} (hnodup : clusters.Nodup) (hitems : ∀ c ∈ clusters, ∀ ing ∈ items c, PlainNames ing)
    (hdistinct : ∀ c' ∈ clusters, ∀ w' ∈ given digest gateway c' (items c'), w'.2.name = w.2.name → w' = w)
    (hc : c ∈ clusters) (hw : w ∈ given digest gateway c (items c)) :
    Settled w ((clusters.foldl (fun routes c => syncCluster digest gateway routes c (items c)) routes).get? w.2.name) ↔
      (∀ row ∈ routes.get? w.2.name, row.owner = w.1 ∨
        row.listed gateway = true ∧ ∃ h ∈ before clusters c, ownedBy h row.owner = true) ∧
      ∀ h ∈ after clusters c, ownedBy h w.1 = false := by
  have hsplit := before_append_after hc
  have hnotin : c ∉ before clusters c ∧ c ∉ after clusters c := by
    rw [← hsplit] at hnodup
    exact ⟨fun h => (List.nodup_append.mp hnodup).2.2 c h c List.mem_cons_self rfl,
      (List.nodup_cons.mp (List.nodup_append.mp hnodup).2.1).1⟩
  -- the owner tells the cluster, so no other cluster gives a route of this name
  have hother : ∀ c' ∈ clusters, c' ≠ c → ∀ x ∈ given digest gateway c' (items c'), x.2.name ≠ w.2.name := by
    intro c' hc' hne x hx hname
    have hsame := hdistinct c' hc' x hx hname
    exact hne (cluster_of_given (hitems c' hc') (hitems c hc) hx hw (congrArg Prod.fst hsame))
  have hmem : ∀ c', c' ∈ before clusters c ∨ c' ∈ after clusters c → c' ∈ clusters := by
    intro c' hc'
    rw [← hsplit]
    rcases hc' with hc' | hc'
    · exact List.mem_append_left _ hc'
    · exact List.mem_append_right _ (List.mem_cons_of_mem c hc')
  have hbefore : ((before clusters c).foldl (fun routes c => syncCluster digest gateway routes c (items c)) routes).get?
      w.2.name = (routes.get? w.2.name).filter (keeps gateway (before clusters c)) :=
    get?_syncClusters fun c' hc' => hother c' (hmem c' (.inl hc')) fun h => hnotin.1 (h ▸ hc')
  rw [← hsplit, List.foldl_append, List.foldl_cons, get?_syncClusters
    fun c' hc' => hother c' (hmem c' (.inr hc')) fun h => hnotin.2 (h ▸ hc'),
    get?_syncCluster_of_given hw (hdistinct c hc), hbefore, settled_claim (owner_of_given hw).2, hsplit]
  refine and_congr_left fun _ => ⟨fun h row hrow => ?_, fun h row hrow => ?_⟩
  · by_cases hkeeps : keeps gateway (before clusters c) row = true
    · exact .inl (h row (Option.filter_eq_some_iff.mpr ⟨hrow, hkeeps⟩))
    · exact .inr (not_not.mp fun hnot => hkeeps (keeps_iff.mpr hnot))
  · obtain ⟨hstored, hkeeps⟩ := Option.filter_eq_some_iff.mp hrow
    exact (h row hstored).resolve_right (keeps_iff.mp hkeeps)

/-- The property is about the rows of the routes that are given: the others are deleted. -/
theorem mirrored_iff_settled : Mirrored digest gateway clusters items
    (clusters.foldl (fun routes c => syncCluster digest gateway routes c (items c)) routes) ↔
      ∀ c ∈ clusters, ∀ w ∈ given digest gateway c (items c),
        Settled w ((clusters.foldl (fun routes c => syncCluster digest gateway routes c (items c)) routes).get?
          w.2.name) := by
  constructor
  · intro h c hc w hw
    obtain ⟨row, hrow, howner, hspec, -⟩ := (h w).mpr ⟨c, hc, hw⟩
    exact ⟨row, hrow, howner, hspec⟩
  · refine fun h w => ⟨?_, ?_⟩
    · rintro ⟨row, hrow, howner, hspec, hlisted, c, hc, howned⟩
      by_cases hgiven : ∃ c ∈ clusters, ∃ x ∈ given digest gateway c (items c), x.2.name = w.2.name
      · obtain ⟨c', hc', x, hx, hname⟩ := hgiven
        have hw : x = w := Settled.eq (hname ▸ h c' hc' x hx) ⟨row, hrow, howner, hspec⟩ hname
        exact ⟨c', hc', hw ▸ hx⟩
      -- nobody gives the name, and the cluster that the owner starts with deletes the row
      · have hnone : ∀ c ∈ clusters, ∀ x ∈ given digest gateway c (items c), x.2.name ≠ w.2.name :=
          fun c hc x hx hname => hgiven ⟨c, hc, x, hx, hname⟩
        rw [Option.mem_def, get?_syncClusters hnone] at hrow
        exact absurd ⟨hlisted, c, hc, howner ▸ howned⟩ (keeps_iff.mp (Option.filter_eq_some_iff.mp hrow).2)
    · rintro ⟨c, hc, hw⟩
      obtain ⟨row, hrow, howner, hspec⟩ := h c hc w hw
      obtain ⟨⟨ing, -, name, -, hobject⟩, hgateway⟩ := owner_of_given hw
      refine ⟨row, hrow, howner, hspec, ?_, c, hc, hobject ▸ ownedBy_ownerOf c _ name⟩
      simp [RouteRow.listed, hspec, hgateway]

end Row

/-- A pass of a gateway with unique clusters in which every cluster answers mirrors the objects exactly if no name is
used twice. -/
theorem mirrored_iff (digest : String → String) (gateway : String) (spec : GatewaySpec) (k : KubernetesIngress)
    (hk : spec.kubernetes = some k) (hcontroller : k.ingressController = true) (hunique : k.clusters.Nodup)
    (items : String → List Value) (hitems : ∀ c ∈ k.clusters, ∀ ing ∈ items c, PlainNames ing) (routes : Routes) :
    Mirrored digest gateway k.clusters items (syncIngresses digest gateway spec (fun c => some (items c)) routes) ↔
      Undisturbed digest gateway k.clusters items routes := by
  have hpass : syncIngresses digest gateway spec (fun c => some (items c)) routes =
      k.clusters.foldl (fun routes c => syncCluster digest gateway routes c (items c)) routes := by
    rw [syncIngresses, hk, Option.filter_some_pos (by exact hcontroller)]
  rw [hpass, mirrored_iff_settled]
  constructor
  · intro h
    have hdistinct : ∀ c ∈ k.clusters, ∀ w ∈ given digest gateway c (items c), ∀ c' ∈ k.clusters,
        ∀ w' ∈ given digest gateway c' (items c'), w.2.name = w'.2.name → w = w' :=
      fun c hc w hw c' hc' w' hw' hname => (h c hc w hw).eq (hname ▸ h c' hc' w' hw') hname
    have hrows := fun c hc w hw => (settled_iff hunique hitems
      (fun c' hc' w' hw' => hdistinct c' hc' w' hw' c hc w hw) hc hw).mp (h c hc w hw)
    exact ⟨hdistinct, fun c hc w hw => (hrows c hc w hw).1, fun c hc w hw => (hrows c hc w hw).2⟩
  · intro h c hc w hw
    exact (settled_iff hunique hitems (fun c' hc' w' hw' => h.distinct c' hc' w' hw' c hc w hw) hc hw).mpr
      ⟨h.free c hc w hw, h.kept c hc w hw⟩

/-! ### Two objects of one name -/

def kubernetesGateway (clusters : List String) : GatewaySpec where
  nodes := ["node-1"]
  listeners := [⟨"192.0.2.1", [80, 443], false⟩]
  highAvailability := none
  tls := ⟨⟨"ops@example.com", "letsencrypt", ["http-01"], none⟩, "local", "1.2"⟩
  defaultWafPolicy := none
  rateLimit := none
  accessLog := false
  kubernetes := some ⟨true, clusters⟩

def ingressObject (namespace_ name host : String) : Value :=
  .object [("metadata", .object [("namespace", .string namespace_), ("name", .string name)]),
    ("spec", .object [("ingressClassName", .string "kcore"), ("rules", .array [.object [("host", .string host),
      ("http", .object [("paths", .array [.object [("path", .string "/"), ("backend", .object [("service", .object
        [("name", .string "web"), ("port", .object [("number", .number (.int 80))])])])]])])]])])]

def noDigest : String → String := fun _ => ""

def labPass (ns name ns' name' : String) (routes : Routes) : Routes :=
  syncIngresses noDigest "edge" (kubernetesGateway ["lab"])
    (fun _ => some [ingressObject ns name "a.example.com", ingressObject ns' name' "b.example.com"]) routes

theorem two_objects_mirrored :
    Mirrored noDigest "edge" ["lab"]
      (fun _ => [ingressObject "shop" "web" "a.example.com", ingressObject "blog" "web" "b.example.com"])
      (labPass "shop" "web" "blog" "web" (labPass "shop" "old" "blog" "web" SortedMap.empty)) :=
  (mirrored_iff noDigest "edge" (kubernetesGateway ["lab"]) ⟨true, ["lab"]⟩ rfl rfl (by decide) _
    (by unfold PlainNames; decide +kernel) _).mpr ⟨by decide +kernel, by decide +kernel, by decide +kernel⟩

/-- The route of the second object is not stored, because the first one has its name. -/
theorem second_object_has_no_route :
    ¬Mirrored noDigest "edge" ["lab"]
      (fun _ => [ingressObject "a-b" "c" "a.example.com", ingressObject "a" "b-c" "b.example.com"])
      (labPass "a-b" "c" "a" "b-c" SortedMap.empty) := by
  intro h
  have howners : ∀ w ∈ given noDigest "edge" "lab"
      [ingressObject "a-b" "c" "a.example.com", ingressObject "a" "b-c" "b.example.com"],
      ((labPass "a-b" "c" "a" "b-c" SortedMap.empty).get? w.2.name).map RouteRow.owner = some w.1 := by
    intro w hw
    obtain ⟨row, hrow, howner, -⟩ := (h w).mpr ⟨"lab", List.mem_singleton_self _, hw⟩
    rw [hrow, Option.map_some, howner]
  exact absurd howners (by decide +kernel)

end Digest

end Ingress.Controller

end Kcore
