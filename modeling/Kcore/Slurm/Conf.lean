import Kcore.Slurm.Members
import Kcore.Net.Ipv4
import Mathlib.Data.List.Sort
import Mathlib.Algebra.BigOperators.Group.List.Lemmas

/-!
# The configuration files of Slurm

`slurm.conf` and `gres.conf` are lines of words that are separated by blanks. The values of the spec are checked after
they are trimmed but written as they are, and the names of the GPUs are not checked at all, so a blank in one of them
makes two words of one. The files say what the spec says exactly if there is none, and every partition has a node
(`conf_faithful_iff`).
-/

namespace Kcore.Slurm.Conf

open Checks Keyed

/-! ### The code -/

abbrev Gpus := String → List String

def line (value : String) : String :=
  String.ofList (value.toList.map fun c => if c = '\n' ∨ c = '\r' then ' ' else c)

def renderLines (ls : List (List String)) : String := String.join (ls.map fun words => " ".intercalate words ++ "\n")

def values (members : Members) : List Member := members.rows.insertionSort fun a b => a.nodeId ≤ b.nodeId

def computes (members : Members) : List SlurmComputeSpec := (values members).filterMap (·.compute)

def gpuCount (gpus : Gpus) (compute : SlurmComputeSpec) : Nat :=
  if compute.gres = "auto" then (gpus compute.nodeId).length else 0

def storageHost (spec : SlurmClusterSpec) (members : Members) : Option String :=
  ((members.get (accountingNodeId spec)).map (·.address)).filter (· ≠ "")

section Lines

/-! The lines of the files, with the texts of the spec as `text` writes them. -/

variable (text : String → String)

def settingLines (spec : SlurmClusterSpec) (members : Members) : List (List String) :=
  [["SelectType=select/cons_tres"], ["SelectTypeParameters=CR_Core_Memory"], ["ProctrackType=proctrack/cgroup"],
    ["TaskPlugin=task/cgroup,task/affinity"], ["SchedulerType=sched/backfill"], ["SrunPortRange=60001-63000"],
    ["ReturnToService=2"], ["SlurmdTimeout=300"]] ++
    (match spec.backupController with
    | some backup => [["BackupController=" ++ text backup.nodeId], ["BackupAddr=" ++ text backup.address]]
    | none => []) ++
    if spec.accounting.enabled then
      [["AccountingStorageType=accounting_storage/slurmdbd"], ["JobAcctGatherType=jobacct_gather/cgroup"],
        ["JobAcctGatherFrequency=30"]] ++
        match storageHost spec members with
        | some address => [["AccountingStorageHost=" ++ text address], ["AccountingStoragePort=6819"]]
        | none => []
    else []

def nodeWords (gpus : Gpus) (compute : SlurmComputeSpec) : List String :=
  ["NodeName=" ++ text compute.nodeId, "NodeAddr=" ++ text compute.address] ++
    (if 0 < compute.reserveCores then ["CoreSpecCount=" ++ toString compute.reserveCores] else []) ++
    (if 0 < compute.reserveMemoryMb then ["MemSpecLimit=" ++ toString compute.reserveMemoryMb] else []) ++
    (if 0 < gpuCount gpus compute then ["Gres=gpu:" ++ toString (gpuCount gpus compute)] else []) ++ ["State=UNKNOWN"]

def partitionWords (nodes : List String) (partition : SlurmPartitionSpec) : List String :=
  ["PartitionName=" ++ text partition.name, "Nodes=" ++ ",".intercalate (nodes.map text),
    "Default=" ++ (if partition.isDefault then "YES" else "NO"),
    "MaxTime=" ++ text (if trim partition.maxTime = "" then "INFINITE" else partition.maxTime),
    "State=" ++ text (if trim partition.state = "" then "UP" else partition.state)]

def partitionNodes (members : List Member) (partition : SlurmPartitionSpec) : List String :=
  (members.filter fun m => m.compute.any fun compute => compute.partitions.contains partition.name).map (·.nodeId)

def slurmLines (spec : SlurmClusterSpec) (members : Members) (gpus : Gpus) : List (List String) :=
  settingLines text spec members ++ (computes members).map (nodeWords text gpus) ++
    (spec.partitions.filter fun p => partitionNodes (values members) p ≠ []).map fun p =>
      partitionWords text (partitionNodes (values members) p) p

/-- `by_model`: how many GPUs there are of each model, in the order of the models. -/
def byModel (models : List String) : List (String × Nat) :=
  (models.dedup.insertionSort (· ≤ ·)).map fun model => (model, models.count model)

def gresWords (compute : SlurmComputeSpec) (entry : String × Nat) : List String :=
  ["NodeName=" ++ text compute.nodeId, "Name=gpu", "Type=" ++ text (if trim entry.1 = "" then "gpu" else entry.1),
    "Count=" ++ toString entry.2]

def gresLines (spec : SlurmClusterSpec) (gpus : Gpus) : List (List String) :=
  (spec.compute.filter fun compute => compute.gres = "auto").flatMap fun compute =>
    (byModel (gpus compute.nodeId)).map (gresWords text compute)

end Lines

def renderSlurmConf (spec : SlurmClusterSpec) (members : Members) (gpus : Gpus) : String :=
  renderLines (slurmLines line spec members gpus) ++
    if trim spec.extraConfig = "" then ""
    else String.ofList (spec.extraConfig.toList.reverse.dropWhile isWhitespace).reverse ++ "\n"

def renderGresConf (spec : SlurmClusterSpec) (gpus : Gpus) : String := renderLines (gresLines line spec gpus)

/-! ### What is asked for -/

def readConf (text : String) : List (List String) := ((splitAll text '\n').map splitWhitespace).filter (· ≠ [])

/-- One line for each compute node, one for each partition with its nodes, and in `gres.conf` as many GPUs for each node
as in `slurm.conf`, all with the values of the spec; the settings are the only other lines. -/
structure Faithful (spec : SlurmClusterSpec) (members : Members) (gpus : Gpus) : Prop where
  slurm : ∃ nodes : List SlurmComputeSpec, nodes.Perm spec.compute ∧
    readConf (renderSlurmConf spec members gpus) =
      settingLines id spec members ++ nodes.map (nodeWords id gpus) ++ spec.partitions.map fun p =>
        partitionWords id ((nodes.filter fun c => c.partitions.contains p.name).map (·.nodeId)) p
  gres : readConf (renderGresConf spec gpus) =
    (spec.compute.filter fun compute => compute.gres = "auto").flatMap fun compute =>
      (byModel (gpus compute.nodeId)).map (gresWords id compute)
  counts : ∀ c ∈ spec.compute, c.gres = "auto" → ((byModel (gpus c.nodeId)).map Prod.snd).sum = gpuCount gpus c
  commas : ∀ c ∈ spec.compute, ',' ∉ c.nodeId.toList

def NoBlank (s : String) : Prop := ∀ c ∈ s.toList, isWhitespace c = false

structure Plain (spec : SlurmClusterSpec) (members : Members) (gpus : Gpus) : Prop where
  backup : ∀ b ∈ spec.backupController, NoBlank b.nodeId ∧ NoBlank b.address
  accounting : spec.accounting.enabled = true → ∀ a ∈ storageHost spec members, NoBlank a
  compute : ∀ c ∈ spec.compute, NoBlank c.nodeId ∧ NoBlank c.address
  partitions : ∀ p ∈ spec.partitions, NoBlank p.name ∧ (trim p.maxTime ≠ "" → NoBlank p.maxTime)
  models : ∀ c ∈ spec.compute, c.gres = "auto" → ∀ model ∈ gpus c.nodeId, trim model ≠ "" → NoBlank model

/-! ### Words -/

theorem noBlank_append {a b : String} : NoBlank (a ++ b) ↔ NoBlank a ∧ NoBlank b := by
  simp only [NoBlank, String.toList_append, List.mem_append, or_imp, forall_and]

variable {value : String} {spec : SlurmClusterSpec}

theorem line_of_noBlank (h : NoBlank value) : line value = value := by
  refine String.toList_inj.mp ?_
  rw [line, String.toList_ofList]
  refine (List.map_congr_left fun c hc => if_neg ?_).trans (List.map_id _)
  have hc := h c hc
  rintro (rfl | rfl) <;> exact Bool.false_ne_true (hc.symm.trans (by decide))

theorem noBlank_toString (n : Nat) : NoBlank (toString n) := by
  intro c hc
  have hdigit := isDigit_of_mem_toString hc
  exact isWhitespace_of_isAlphanum (by simp [Char.isAlphanum, hdigit])

theorem noBlank_toString_int {z : Int} (hz : 0 < z) : NoBlank (toString z) := by
  obtain ⟨n, rfl⟩ := Int.eq_ofNat_of_zero_le hz.le
  exact noBlank_toString n

theorem mem_intercalate {sep : String} {parts : List String} {c : Char} (h : c ∈ (sep.intercalate parts).toList) :
    c ∈ sep.toList ∨ ∃ part ∈ parts, c ∈ part.toList := by
  induction parts with
  | nil => simp at h
  | cons part parts ih =>
    cases parts with
    | nil => exact .inr ⟨part, List.mem_cons_self, by simpa using h⟩
    | cons next parts =>
      have hjoin : (sep.intercalate (part :: next :: parts)).toList =
          part.toList ++ (sep.toList ++ (sep.intercalate (next :: parts)).toList) := by
        simp [String.toList_intercalate]
      rw [hjoin, List.mem_append, List.mem_append] at h
      rcases h with h | h | h
      · exact .inr ⟨part, List.mem_cons_self, h⟩
      · exact .inl h
      · exact (ih h).imp_right fun ⟨part, hpart, hc⟩ => ⟨part, List.mem_cons_of_mem _ hpart, hc⟩

theorem noBlank_commas {parts : List String} (h : ∀ part ∈ parts, NoBlank part) : NoBlank (",".intercalate parts) := by
  intro c hc
  rcases mem_intercalate hc with hc | ⟨part, hpart, hc⟩
  · rw [List.mem_singleton.mp hc]
    decide
  · exact h part hpart c hc

theorem readConf_renderLines {ls : List (List String)} (h : ∀ l ∈ ls, l ≠ [] ∧ ∀ w ∈ l, IsToken w) :
    readConf (renderLines ls) = ls := by
  have hsplit : splitAll (renderLines ls) '\n' = ls.map (" ".intercalate ·) ++ [""] := by
    induction ls with
    | nil => rfl
    | cons l ls ih =>
      have hrest := ih fun l hl => h l (List.mem_cons_of_mem _ hl)
      have htext : (renderLines (l :: ls)).toList = (" ".intercalate l).toList ++ '\n' :: (renderLines ls).toList := by
        simp [renderLines, String.join_cons]
      have hnot : ∀ c ∈ (" ".intercalate l).toList, decide (c = '\n') = false := by
        intro c hc
        refine decide_eq_false fun heq => ?_
        rcases mem_intercalate hc with hc | ⟨w, hw, hc⟩
        · exact absurd (heq ▸ List.mem_singleton.mp hc) (by decide)
        · exact Bool.false_ne_true ((((h l List.mem_cons_self).2 w hw).2 c hc).symm.trans (heq ▸ by decide))
      unfold splitAll at hrest ⊢
      rw [htext, List.splitOnP_append_cons_of_forall_mem hnot '\n' (by decide), List.map_cons, hrest,
        String.ofList_toList]
      rfl
  have hwords : (ls.map (" ".intercalate ·)).map splitWhitespace = ls := by
    rw [List.map_map]
    refine (List.map_congr_left fun l hl => ?_).trans (List.map_id _)
    exact splitWhitespace_intercalate l (h l hl).2
  have hempty : splitWhitespace "" = [] := by decide
  rw [readConf, hsplit, List.map_append, hwords, List.map_singleton, hempty, List.filter_append]
  have hfilter : ls.filter (· ≠ []) = ls := List.filter_eq_self.mpr fun l hl => by simpa using (h l hl).1
  rw [hfilter]
  simp

theorem isToken_of_readConf {text : String} {l : List String} {w : String} (hl : l ∈ readConf text) (hw : w ∈ l) :
    IsToken w := by
  obtain ⟨l', -, rfl⟩ := List.mem_map.mp (List.mem_filter.mp hl).1
  exact isToken_of_mem_splitWhitespace hw

/-! ### Lines -/

theorem isToken_key {key : String} (hvalue : NoBlank value) (hkey : IsToken key) : IsToken (key ++ value) :=
  ⟨fun hempty => hkey.1 (String.append_eq_empty_iff.mp hempty).1, noBlank_append.mpr ⟨hkey.2, hvalue⟩⟩

theorem noBlank_ite (h : trim value ≠ "" → NoBlank value) (other : String) (hother : IsToken other) :
    NoBlank (if trim value = "" then other else value) := by
  split
  · exact hother.2
  · exact h ‹_›

/-- Lines whose values are written as they are, and which are read as they are written. -/
structure ReadsBack (lines : (String → String) → List (List String)) : Prop where
  line_eq : lines line = lines id
  tokens : ∀ l ∈ lines id, l ≠ [] ∧ ∀ w ∈ l, IsToken w

namespace ReadsBack

variable {f g : (String → String) → List (List String)} {α : Type} {l : List α}

theorem append (hf : ReadsBack f) (hg : ReadsBack g) : ReadsBack fun text => f text ++ g text where
  line_eq := by rw [hf.line_eq, hg.line_eq]
  tokens l hl := (List.mem_append.mp hl).elim (hf.tokens l) (hg.tokens l)

theorem const {ls : List (List String)} (h : ∀ l ∈ ls, l ≠ [] ∧ ∀ w ∈ l, IsToken w) : ReadsBack fun _ => ls := ⟨rfl, h⟩

theorem flatMap {lines : (String → String) → α → List (List String)} (h : ∀ a ∈ l, ReadsBack fun text => lines text a) :
    ReadsBack fun text => l.flatMap (lines text) where
  line_eq := by
    rw [List.flatMap_def, List.flatMap_def, List.map_congr_left fun a ha => (h a ha).line_eq]
  tokens words hwords := by
    obtain ⟨a, ha, hwords⟩ := List.mem_flatMap.mp hwords
    exact (h a ha).tokens words hwords

theorem map {words : (String → String) → α → List String} (h : ∀ a ∈ l, ReadsBack fun text => [words text a]) :
    ReadsBack fun text => l.map (words text) := by
  simp only [List.map_eq_flatMap]
  exact flatMap h

theorem key {k : String} (hvalue : NoBlank value) (hk : IsToken k) :
    ReadsBack fun text => [[k ++ text value]] where
  line_eq := by rw [line_of_noBlank hvalue]; rfl
  tokens words hwords := by
    rw [List.mem_singleton.mp hwords]
    refine ⟨List.cons_ne_nil _ _, fun w hw => ?_⟩
    rw [List.mem_singleton.mp hw]
    exact isToken_key hvalue hk

theorem readConf (h : ReadsBack f) : Conf.readConf (renderLines (f line)) = f id := by
  rw [h.line_eq]
  exact readConf_renderLines h.tokens

end ReadsBack

theorem settingLines_readsBack {members : Members}
    (hbackup : ∀ b ∈ spec.backupController, NoBlank b.nodeId ∧ NoBlank b.address)
    (haccounting : spec.accounting.enabled = true → ∀ a ∈ storageHost spec members, NoBlank a) :
    ReadsBack fun text => settingLines text spec members := by
  unfold settingLines
  refine (ReadsBack.append (.const (by decide)) ?_).append ?_
  · cases hb : spec.backupController with
    | none => exact .const nofun
    | some b =>
      obtain ⟨hid, haddress⟩ := hbackup b hb
      exact (ReadsBack.key hid (by decide)).append (.key haddress (by decide))
  · by_cases henabled : spec.accounting.enabled = true
    · simp only [henabled, if_true]
      refine ReadsBack.append (.const (by decide)) ?_
      cases ha : storageHost spec members with
      | none => exact .const nofun
      | some a => exact (ReadsBack.key (haccounting henabled a ha) (by decide)).append (.const (by decide))
    · simp only [henabled]
      exact .const nofun

theorem nodeWords_readsBack {gpus : Gpus} {c : SlurmComputeSpec} (hid : NoBlank c.nodeId)
    (haddress : NoBlank c.address) : ReadsBack fun text => [nodeWords text gpus c] where
  line_eq := by simp [nodeWords, line_of_noBlank hid, line_of_noBlank haddress]
  tokens words hwords := by
    rw [List.mem_singleton.mp hwords]
    refine ⟨List.cons_ne_nil _ _, fun w hw => ?_⟩
    simp only [nodeWords, id, List.mem_append, List.mem_cons, List.not_mem_nil, or_false, List.mem_ite_nil_right] at hw
    rcases hw with ((((rfl | rfl) | ⟨hcores, rfl⟩) | ⟨hmemory, rfl⟩) | ⟨-, rfl⟩) | rfl
    · exact isToken_key hid (by decide)
    · exact isToken_key haddress (by decide)
    · exact isToken_key (noBlank_toString_int hcores) (by decide)
    · exact isToken_key (noBlank_toString_int hmemory) (by decide)
    · exact isToken_key (noBlank_toString _) (by decide)
    · decide

theorem partitionWords_readsBack {nodes : List String} {p : SlurmPartitionSpec} (hnodes : ∀ node ∈ nodes, NoBlank node)
    (hname : NoBlank p.name) (hmax : trim p.maxTime ≠ "" → NoBlank p.maxTime)
    (hstate : trim p.state ≠ "" → NoBlank p.state) : ReadsBack fun text => [partitionWords text nodes p] where
  line_eq := by
    have hmap : nodes.map line = nodes.map id := List.map_congr_left fun n hn => line_of_noBlank (hnodes n hn)
    simp only [partitionWords, hmap, line_of_noBlank hname, line_of_noBlank (noBlank_ite hmax "INFINITE" (by decide)),
      line_of_noBlank (noBlank_ite hstate "UP" (by decide)), id]
  tokens words hwords := by
    rw [List.mem_singleton.mp hwords]
    refine ⟨List.cons_ne_nil _ _, fun w hw => ?_⟩
    simp only [partitionWords, List.map_id, id, List.mem_cons, List.not_mem_nil, or_false] at hw
    rcases hw with rfl | rfl | rfl | rfl | rfl
    · exact isToken_key hname (by decide)
    · exact isToken_key (noBlank_commas hnodes) (by decide)
    · cases p.isDefault <;> decide
    · exact isToken_key (noBlank_ite hmax "INFINITE" (by decide)) (by decide)
    · exact isToken_key (noBlank_ite hstate "UP" (by decide)) (by decide)

theorem gresWords_readsBack {c : SlurmComputeSpec} {entry : String × Nat} (hid : NoBlank c.nodeId)
    (hmodel : trim entry.1 ≠ "" → NoBlank entry.1) : ReadsBack fun text => [gresWords text c entry] where
  line_eq := by simp only [gresWords, line_of_noBlank hid, line_of_noBlank (noBlank_ite hmodel "gpu" (by decide)), id]
  tokens words hwords := by
    rw [List.mem_singleton.mp hwords]
    refine ⟨List.cons_ne_nil _ _, fun w hw => ?_⟩
    simp only [gresWords, id, List.mem_cons, List.not_mem_nil, or_false] at hw
    rcases hw with rfl | rfl | rfl | rfl
    · exact isToken_key hid (by decide)
    · decide
    · exact isToken_key (noBlank_ite hmodel "gpu" (by decide)) (by decide)
    · exact isToken_key (noBlank_toString _) (by decide)

/-! ### The compute nodes among the members -/

/-- The compute entries of the members are those of `done`, each with the member of its node. -/
structure Carries (done : List SlurmComputeSpec) (out : Members) : Prop where
  nodeId : ∀ m ∈ out.rows, ∀ c, m.compute = some c → c.nodeId = m.nodeId
  mem : ∀ c, (∃ m ∈ out.rows, m.compute = some c) ↔ c ∈ done

section Carries

variable {done done' : List SlurmComputeSpec} {out : Members} {fresh : Member}

theorem Carries.put {m : Member} (h : Carries done out) (hm : ∀ c, m.compute = some c → c.nodeId = m.nodeId)
    (hdone : ∀ c, c ∈ done' ↔ m.compute = some c ∨ c ∈ done ∧ c.nodeId ≠ m.nodeId) : Carries done' (out.put m) where
  nodeId o ho c hc := by
    rcases Table.mem_put.mp ho with rfl | ⟨ho, -⟩
    · exact hm c hc
    · exact h.nodeId o ho c hc
  mem c := by
    rw [hdone, ← h.mem c]
    constructor
    · rintro ⟨o, ho, hc⟩
      rcases Table.mem_put.mp ho with rfl | ⟨ho, hne⟩
      · exact .inl hc
      · exact .inr ⟨⟨o, ho, hc⟩, h.nodeId o ho c hc ▸ hne⟩
    · rintro (hc | ⟨⟨o, ho, hc⟩, hne⟩)
      · exact ⟨m, Table.mem_put.mpr (.inl rfl), hc⟩
      · exact ⟨o, Table.mem_put.mpr (.inr ⟨ho, h.nodeId o ho c hc ▸ hne⟩), hc⟩

theorem Carries.addRole (h : Carries done out) (hnone : fresh.compute = none) (role : String) :
    Carries done (upsert out fresh (Member.addRole role)) := by
  obtain ⟨hid, -, hcompute⟩ := addRole_spec role ((out.get fresh.nodeId).getD fresh)
  rw [nodeId_entry] at hid
  -- an entry that the member has is one that the row of the node has
  have hentry : ∀ c, ((out.get fresh.nodeId).getD fresh).compute = some c ↔ c ∈ done ∧ c.nodeId = fresh.nodeId := by
    intro c
    rw [← h.mem c]
    cases hget : out.get fresh.nodeId with
    | none =>
      refine ⟨fun hc => absurd (hnone.symm.trans hc) nofun, ?_⟩
      rintro ⟨⟨m, hm, hc⟩, heq⟩
      have hm' := Table.get_of_mem hm
      rw [← h.nodeId m hm c hc, heq, hget] at hm'
      nomatch hm'
    | some o =>
      have ho := Table.mem_of_get hget
      refine ⟨fun hc => ⟨⟨o, ho, hc⟩, (h.nodeId o ho c hc).trans (Table.key_of_get hget)⟩, ?_⟩
      rintro ⟨⟨m, hm, hc⟩, heq⟩
      have hm' := Table.get_of_mem hm
      rw [← h.nodeId m hm c hc, heq, hget] at hm'
      rw [Option.some.inj hm']
      exact hc
  refine h.put (fun c hc => ?_) fun c => ?_
  · rw [hcompute] at hc
    rw [hid]
    exact ((hentry c).mp hc).2
  · rw [hcompute, hentry, hid]
    tauto

theorem Carries.addCompute {c : SlurmComputeSpec} (h : Carries done out) (hnew : c.nodeId ∉ done.map (·.nodeId)) :
    Carries (c :: done) (addCompute out c) := by
  have hnode := nodeId_entry out ⟨c.nodeId, c.address, c.iface, [], none⟩
  obtain ⟨hid, -, hcompute⟩ :=
    setCompute_spec c ((out.get c.nodeId).getD ⟨c.nodeId, c.address, c.iface, [], none⟩)
  refine h.put (fun d hd => ?_) fun d => ?_
  · rw [hid, hnode, ← Option.some.inj (hcompute.symm.trans hd)]
  · rw [hcompute, hid, hnode, List.mem_cons, Option.some.injEq, eq_comm]
    have hne : d ∈ done → d.nodeId ≠ c.nodeId := fun hd heq => hnew (heq ▸ List.mem_map_of_mem hd)
    tauto

theorem Carries.foldl {todo : List SlurmComputeSpec} (h : Carries done out)
    (hnodup : ((todo.reverse ++ done).map (·.nodeId)).Nodup) :
    Carries (todo.reverse ++ done) (todo.foldl Slurm.addCompute out) := by
  induction todo generalizing done out with
  | nil => exact h
  | cons c rest ih =>
    rw [List.reverse_cons, List.append_assoc, List.singleton_append] at hnodup ⊢
    refine ih (h.addCompute fun hmem => ?_) hnodup
    rw [List.map_append, List.map_cons] at hnodup
    exact (List.nodup_cons.mp (List.nodup_append.mp hnodup).2.1).1 hmem

theorem carries_members (hnodup : (spec.compute.map (·.nodeId)).Nodup) (lookup : Lookup) :
    Carries spec.compute.reverse (members spec lookup) := by
  have hcontrollers : Carries [] ((spec.controller :: spec.backupController.toList).foldl addController .empty) := by
    have hempty : Carries [] .empty := ⟨fun m hm => absurd hm List.not_mem_nil, fun c => by simp [Table.empty]⟩
    refine List.foldlRecOn _ _ hempty fun out hout c _ => ?_
    exact hout.put (fun c hc => absurd hc.symm (Option.some_ne_none c)) fun c => by simp
  have hlogins : Carries [] (spec.login.foldl (addLogin spec lookup)
      ((spec.controller :: spec.backupController.toList).foldl addController .empty)) :=
    List.foldlRecOn _ _ hcontrollers fun out hout nodeId _ => hout.addRole rfl "login"
  have hroles : Carries spec.compute.reverse (roleMembers spec lookup) := by
    rw [← List.append_nil spec.compute.reverse]
    refine hlogins.foldl ?_
    rw [List.append_nil, List.map_reverse]
    exact List.nodup_reverse.mpr hnodup
  rw [members_eq]
  split
  · exact hroles.addRole rfl "dbd"
  · exact hroles

end Carries

theorem map_filterMap_sublist {l : List Member} (h : ∀ m ∈ l, ∀ c, m.compute = some c → c.nodeId = m.nodeId) :
    ((l.filterMap (·.compute)).map (·.nodeId)).Sublist (l.map (·.nodeId)) := by
  induction l with
  | nil => exact .slnil
  | cons m l ih =>
    have hrest := ih fun m hm => h m (List.mem_cons_of_mem _ hm)
    cases hm : m.compute with
    | none => simpa [hm] using hrest.cons m.nodeId
    | some c => simpa [hm, h m List.mem_cons_self c hm] using hrest.cons_cons m.nodeId

theorem partitionNodes_eq {l : List Member} (h : ∀ m ∈ l, ∀ c, m.compute = some c → c.nodeId = m.nodeId)
    (p : SlurmPartitionSpec) : partitionNodes l p =
      ((l.filterMap (·.compute)).filter fun c => c.partitions.contains p.name).map (·.nodeId) := by
  unfold partitionNodes
  induction l with
  | nil => rfl
  | cons m l ih =>
    have hrest := ih fun m hm => h m (List.mem_cons_of_mem _ hm)
    cases hm : m.compute with
    | none => simpa [hm] using hrest
    | some c =>
      have hid := h m List.mem_cons_self c hm
      by_cases hp : p.name ∈ c.partitions
      · simpa [hm, hp, hid] using hrest
      · simpa [hm, hp] using hrest

theorem mem_values {members : Members} {m : Member} : m ∈ values members ↔ m ∈ members.rows :=
  (List.perm_insertionSort _ _).mem_iff

theorem computes_perm (hnodup : (spec.compute.map (·.nodeId)).Nodup) (lookup : Lookup) :
    (computes (members spec lookup)).Perm spec.compute := by
  have hcarries := carries_members hnodup lookup
  have hrows : ((members spec lookup).rows.filterMap (·.compute)).Nodup :=
    (((members spec lookup).nodup).sublist (map_filterMap_sublist hcarries.nodeId)).of_map
  refine ((List.perm_insertionSort _ _).filterMap _).trans ?_
  refine (List.perm_ext_iff_of_nodup hrows hnodup.of_map).mpr fun c => ?_
  rw [List.mem_filterMap, hcarries.mem, List.mem_reverse]

/-! ### What the checks give -/

theorem validateCompute_eq_ok {partitions seen : List String} {computes : List SlurmComputeSpec}
    (h : validateCompute partitions seen computes = .ok ()) :
    (computes.map (·.nodeId)).Nodup ∧
      ∀ c ∈ computes, c.nodeId ∉ seen ∧ validateToken "compute nodeId" c.nodeId = .ok () := by
  induction computes generalizing seen with
  | nil => exact ⟨List.nodup_nil, nofun⟩
  | cons c rest ih =>
    simp only [validateCompute, bind_eq_ok, check_eq_ok] at h
    obtain ⟨_, htoken, _, -, _, -, _, hseen, _, -, _, -, _, -, _, -, hrest⟩ := h
    obtain ⟨hnodup, hall⟩ := ih hrest
    refine ⟨List.nodup_cons.mpr ⟨fun hmem => ?_, hnodup⟩, fun d hd => ?_⟩
    · obtain ⟨d, hd, heq⟩ := List.mem_map.mp hmem
      exact (hall d hd).1 (heq ▸ List.mem_cons_self)
    · rcases List.mem_cons.mp hd with rfl | hd
      · exact ⟨of_decide_eq_true hseen, htoken⟩
      · exact ⟨fun hmem => (hall d hd).1 (List.mem_cons_of_mem _ hmem), (hall d hd).2⟩

theorem validatePartitions_eq_ok {seen names : List String} {partitions : List SlurmPartitionSpec}
    (h : validatePartitions seen partitions = .ok names) :
    ∀ p ∈ partitions, trim p.state ≠ "" → p.state ∈ ["UP", "DOWN", "DRAIN"] := by
  induction partitions generalizing seen with
  | nil => exact nofun
  | cons p rest ih =>
    simp only [validatePartitions, bind_eq_ok] at h
    obtain ⟨_, -, _, -, h⟩ := h
    -- the check of the state and the rest of the loop, whether there is a time or not
    have hrest : (trim p.state = "" ∨ p.state ∈ ["UP", "DOWN", "DRAIN"]) ∧
        validatePartitions (p.name :: seen) rest = .ok names := by
      split at h <;> simp only [bind_eq_ok, check_eq_ok] at h <;> obtain ⟨_, -, _, hstate, hrest⟩ := h
      · exact ⟨of_decide_eq_true hstate, hrest⟩
      · exact ⟨of_decide_eq_true hstate, hrest⟩
    intro q hq hne
    rcases List.mem_cons.mp hq with rfl | hq
    · exact hrest.1.resolve_left hne
    · exact ih hrest.2 q hq hne

theorem validateSpec_eq_ok (h : validateSpec spec = .ok ()) :
    ∃ names, validatePartitions [] spec.partitions = .ok names ∧ validateCompute names [] spec.compute = .ok () := by
  simp only [validateSpec, bind_eq_ok, check_eq_ok] at h
  obtain ⟨_, -, _, -, _, -, _, -, _, -, names, hpartitions, _, -, _, hcompute, -⟩ := h
  exact ⟨names, hpartitions, hcompute⟩

theorem mem_trim {s : String} {c : Char} (hc : c ∈ s.toList) (hblank : isWhitespace c = false) :
    c ∈ (trim s).toList := by
  have hdrop : ∀ {l : List Char}, c ∈ l → c ∈ l.dropWhile isWhitespace := by
    intro l hl
    rw [← List.takeWhile_append_dropWhile (p := isWhitespace) (l := l)] at hl
    refine (List.mem_append.mp hl).resolve_left fun htake => ?_
    exact Bool.false_ne_true (hblank.symm.trans (List.mem_takeWhile_imp htake))
  rw [trim, String.toList_ofList, List.mem_reverse]
  exact hdrop (List.mem_reverse.mpr (hdrop hc))

theorem comma_of_validateToken {field : String} (h : validateToken field value = .ok ()) : ',' ∉ value.toList := by
  intro hmem
  simp only [validateToken, bind_eq_ok, check_eq_ok] at h
  obtain ⟨_, -, htoken⟩ := h
  have hchars := List.all_eq_true.mp (of_decide_eq_true htoken).2 ',' (mem_trim hmem (by decide))
  exact absurd hchars (by decide)

theorem sum_byModel (models : List String) : ((byModel models).map Prod.snd).sum = models.length := by
  unfold byModel
  rw [List.map_map]
  refine Eq.trans ?_ (List.sum_map_count_dedup_eq_length models)
  exact ((List.perm_insertionSort _ _).map _).sum_eq

/-! ### The files -/

section Files

variable {spec : SlurmClusterSpec} {lookup : Lookup} {gpus : Gpus}

theorem mem_byModel {models : List String} {entry : String × Nat} (h : entry ∈ byModel models) : entry.1 ∈ models := by
  obtain ⟨model, hmodel, rfl⟩ := List.mem_map.mp h
  exact List.mem_dedup.mp ((List.perm_insertionSort _ _).mem_iff.mp hmodel)

theorem exists_mem_byModel {models : List String} {model : String} (h : model ∈ models) :
    (model, models.count model) ∈ byModel models :=
  List.mem_map.mpr ⟨model, (List.perm_insertionSort _ _).mem_iff.mpr (List.mem_dedup.mpr h), rfl⟩

variable (hvalid : validateSpec spec = .ok ())

include hvalid

theorem nodup_compute : (spec.compute.map (·.nodeId)).Nodup := by
  obtain ⟨names, -, hcompute⟩ := validateSpec_eq_ok hvalid
  exact (validateCompute_eq_ok hcompute).1

theorem slurmLines_eq (text : String → String) :
    slurmLines text spec (members spec lookup) gpus =
      settingLines text spec (members spec lookup) ++ (computes (members spec lookup)).map (nodeWords text gpus) ++
        (spec.partitions.filter fun p => ∃ c ∈ spec.compute, p.name ∈ c.partitions).map fun p =>
          partitionWords text (((computes (members spec lookup)).filter fun c => c.partitions.contains p.name).map
            (·.nodeId)) p := by
  have hcarries := carries_members (nodup_compute hvalid) lookup
  have hperm := computes_perm (nodup_compute hvalid) lookup
  have hnodes : ∀ p, partitionNodes (values (members spec lookup)) p =
      ((computes (members spec lookup)).filter fun c => c.partitions.contains p.name).map (·.nodeId) :=
    partitionNodes_eq fun m hm => hcarries.nodeId m (mem_values.mp hm)
  have hsome : ∀ p : SlurmPartitionSpec, partitionNodes (values (members spec lookup)) p ≠ [] ↔
      ∃ c ∈ spec.compute, p.name ∈ c.partitions := by
    intro p
    simp [hnodes, List.filter_eq_nil_iff, hperm.mem_iff]
  simp only [slurmLines, hnodes, ← hsome]

theorem slurmLines_readsBack (h : Plain spec (members spec lookup) gpus) :
    ReadsBack fun text => slurmLines text spec (members spec lookup) gpus := by
  have hperm := computes_perm (nodup_compute hvalid) lookup
  have hcompute : ∀ c ∈ computes (members spec lookup), NoBlank c.nodeId ∧ NoBlank c.address :=
    fun c hc => h.compute c (hperm.mem_iff.mp hc)
  obtain ⟨names, hpartitions, -⟩ := validateSpec_eq_ok hvalid
  simp only [slurmLines_eq hvalid]
  refine ((settingLines_readsBack h.backup h.accounting).append (.map fun c hc => ?_)).append (.map fun p hp => ?_)
  · exact nodeWords_readsBack (hcompute c hc).1 (hcompute c hc).2
  · have hp := (List.mem_filter.mp hp).1
    refine partitionWords_readsBack (fun node hnode => ?_) (h.partitions p hp).1 (h.partitions p hp).2 fun hne => ?_
    · obtain ⟨c, hc, rfl⟩ := List.mem_map.mp hnode
      exact (hcompute c (List.mem_filter.mp hc).1).1
    · have hstate := validatePartitions_eq_ok hpartitions p hp hne
      have htokens : ∀ state ∈ ["UP", "DOWN", "DRAIN"], IsToken state := by decide
      exact (htokens p.state hstate).2

omit hvalid in
theorem gresLines_readsBack (h : Plain spec (members spec lookup) gpus) :
    ReadsBack fun text => gresLines text spec gpus := by
  refine .flatMap fun c hc => .map fun entry hentry => ?_
  obtain ⟨hc, hgres⟩ := List.mem_filter.mp hc
  refine gresWords_readsBack (h.compute c hc).1 fun hne => ?_
  exact h.models c hc (of_decide_eq_true hgres) _ (mem_byModel hentry) hne

omit hvalid in
theorem plain_of_faithful (h : Faithful spec (members spec lookup) gpus) : Plain spec (members spec lookup) gpus := by
  obtain ⟨nodes, hperm, hslurm⟩ := h.slurm
  have hvalue : ∀ {text key value : String} {l : List String}, l ∈ readConf text → key ++ value ∈ l → NoBlank value :=
    fun hl hw => (noBlank_append.mp (isToken_of_readConf hl hw).2).2
  have hsetting : ∀ key value : String, [key ++ value] ∈ settingLines id spec (members spec lookup) → NoBlank value :=
    fun key value hmem => hvalue (hslurm ▸ List.mem_append_left _ (List.mem_append_left _ hmem)) List.mem_cons_self
  refine ⟨fun b hb => ?_, fun henabled a ha => ?_, fun c hc => ?_, fun p hp => ?_,
    fun c hc hgres model hmodel hne => ?_⟩
  · have hb : spec.backupController = some b := hb
    constructor
    · exact hsetting "BackupController=" b.nodeId (by simp [settingLines, hb])
    · exact hsetting "BackupAddr=" b.address (by simp [settingLines, hb])
  · have ha : storageHost spec (members spec lookup) = some a := ha
    exact hsetting "AccountingStorageHost=" a (by simp [settingLines, henabled, ha])
  · have hl := hslurm ▸ List.mem_append_left _ (List.mem_append_right _ (List.mem_map_of_mem (hperm.mem_iff.mpr hc)))
    exact ⟨hvalue hl List.mem_cons_self, hvalue hl (List.mem_cons_of_mem _ List.mem_cons_self)⟩
  · have hl := hslurm ▸ List.mem_append_right _ (List.mem_map_of_mem hp)
    refine ⟨hvalue hl List.mem_cons_self, fun hne => ?_⟩
    have hword : "MaxTime=" ++ p.maxTime ∈ partitionWords id
        ((nodes.filter fun c => c.partitions.contains p.name).map (·.nodeId)) p := by simp [partitionWords, hne]
    exact hvalue hl hword
  · have hl : gresWords id c (model, (gpus c.nodeId).count model) ∈ readConf (renderGresConf spec gpus) := by
      rw [h.gres]
      refine List.mem_flatMap.mpr ⟨c, List.mem_filter.mpr ⟨hc, decide_eq_true hgres⟩, ?_⟩
      exact List.mem_map_of_mem (exists_mem_byModel hmodel)
    have hword : "Type=" ++ model ∈ gresWords id c (model, (gpus c.nodeId).count model) := by simp [gresWords, hne]
    exact hvalue hl hword

/-- For a spec that the checks let through, the files say what the spec says exactly if no text that is written has a
blank in it and every partition has a node. -/
theorem conf_faithful_iff (hextra : spec.extraConfig = "") :
    Faithful spec (members spec lookup) gpus ↔
      Plain spec (members spec lookup) gpus ∧ ∀ p ∈ spec.partitions, ∃ c ∈ spec.compute, p.name ∈ c.partitions := by
  have hrender : renderSlurmConf spec (members spec lookup) gpus =
      renderLines (slurmLines line spec (members spec lookup) gpus) := by
    rw [renderSlurmConf, hextra, if_pos (by decide), String.append_empty]
  constructor
  · intro h
    have hplain := plain_of_faithful h
    refine ⟨hplain, ?_⟩
    obtain ⟨nodes, hperm, hslurm⟩ := h.slurm
    rw [hrender, (slurmLines_readsBack hvalid hplain).readConf, slurmLines_eq hvalid] at hslurm
    -- there are as many lines for partitions as there are partitions
    have hlength := congrArg List.length hslurm
    have hcomputes := ((computes_perm (nodup_compute hvalid) lookup).trans hperm.symm).length_eq
    simp only [List.length_append, List.length_map, hcomputes] at hlength
    have hall := List.filter_eq_self.mp (List.filter_sublist.eq_of_length (Nat.add_left_cancel hlength))
    exact fun p hp => of_decide_eq_true (hall p hp)
  · rintro ⟨hplain, hnodes⟩
    refine ⟨⟨computes (members spec lookup), computes_perm (nodup_compute hvalid) lookup, ?_⟩, ?_, ?_, ?_⟩
    · rw [hrender, (slurmLines_readsBack hvalid hplain).readConf, slurmLines_eq hvalid]
      rw [List.filter_eq_self.mpr fun p hp => decide_eq_true (hnodes p hp)]
    · exact (gresLines_readsBack hplain).readConf
    · intro c hc hgres
      rw [sum_byModel, gpuCount, if_pos hgres]
    · intro c hc
      obtain ⟨names, -, hcompute⟩ := validateSpec_eq_ok hvalid
      exact comma_of_validateToken ((validateCompute_eq_ok hcompute).2 c hc).2

end Files

def oneNode (nodeId : String) : SlurmClusterSpec :=
  ⟨"hpc", ⟨"head", "10.0.0.1", "eth0"⟩, none, [], ⟨false, ""⟩, [⟨nodeId, "10.0.0.2", "eth0", ["batch"], 0, 0, "auto"⟩],
    [⟨"batch", true, "", ""⟩], [], ⟨"none", [], ""⟩, ""⟩

theorem one_node_faithful :
    Faithful (oneNode "node-1") (members (oneNode "node-1") fun _ => none) fun _ => ["A100"] := by
  refine (conf_faithful_iff (by decide) rfl).mpr ⟨⟨nofun, nofun, ?_, ?_, ?_⟩, by decide⟩
  · intro c hc
    rw [List.mem_singleton.mp hc]
    exact ⟨(by decide : IsToken "node-1").2, (by decide : IsToken "10.0.0.2").2⟩
  · intro p hp
    rw [List.mem_singleton.mp hp]
    exact ⟨(by decide : IsToken "batch").2, fun hne => absurd rfl hne⟩
  · intro c _ _ model hmodel _
    rw [List.mem_singleton.mp hmodel]
    exact (by decide : IsToken "A100").2

/-- The name of a GPU is taken apart, and the name of a node that begins with a blank is not with its key. -/
theorem blanks_make_words :
    (validateSpec (oneNode "node-1") = .ok () ∧
      readConf (renderGresConf (oneNode "node-1") fun _ => ["NVIDIA A100"]) =
        [["NodeName=node-1", "Name=gpu", "Type=NVIDIA", "A100", "Count=1"]] ∧
      ¬Faithful (oneNode "node-1") (members (oneNode "node-1") fun _ => none) fun _ => ["NVIDIA A100"]) ∧
    validateSpec (oneNode " node-1") = .ok () ∧
      readConf (renderGresConf (oneNode " node-1") fun _ => ["A100"]) =
        [["NodeName=", "node-1", "Name=gpu", "Type=A100", "Count=1"]] ∧
      ¬Faithful (oneNode " node-1") (members (oneNode " node-1") fun _ => none) fun _ => ["A100"] := by
  refine ⟨⟨by decide, by decide, fun h => ?_⟩, by decide, by decide, fun h => ?_⟩
  · exact absurd h.gres (by decide)
  · exact absurd h.gres (by decide)

end Kcore.Slurm.Conf
