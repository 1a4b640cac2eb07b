import Kcore.Disko.Classify

/-!
# What a safe verdict says

`lsblk` prints a forest of devices, in which a device with several parents stands once below each of them. A layout
touches the devices that its targets denote, by their path or through a symbolic link, and all devices below them. The
classifier finds those of them that are written as a target, or have such a device among nine ancestors, where it takes
each next ancestor from the first place at which the last one is listed. So a safe verdict can be relied on for exactly
the forests and targets for which these are all.
-/

namespace Kcore.Disko

/-! ### Forests of devices -/

/-- A device as `lsblk` prints it: its path, the name of a parent, and the devices below it. -/
inductive Tree where
  | node (path : String) (pkname : Option String) (children : List Tree)

structure Contents where
  kind : String
  fstype : Option String
  mountpoints : List (Option String)

def optional : Option String → Value
  | none => .null
  | some s => .string s

def fieldsOf (contents : String → Contents) (path : String) (pkname : Option String) : List (String × Value) :=
  [("name", .string path), ("path", .string path), ("fstype", optional (contents path).fstype),
    ("mountpoints", .array ((contents path).mountpoints.map optional)), ("pkname", optional pkname),
    ("type", .string (contents path).kind)]

def childrenField : List Value → List (String × Value)
  | [] => []
  | child :: rest => [("children", .array (child :: rest))]

mutual

def Tree.json (contents : String → Contents) : Tree → Value
  | .node path pkname children =>
    .object (fieldsOf contents path pkname ++ childrenField (jsonAll contents children))

def jsonAll (contents : String → Contents) : List Tree → List Value
  | [] => []
  | t :: rest => t.json contents :: jsonAll contents rest

end

def lsblk (contents : String → Contents) (forest : List Tree) : Value :=
  .object [("blockdevices", .array (jsonAll contents forest))]

mutual

def Tree.listing : Tree → Option String → List (String × Option String)
  | .node path pkname children, parent =>
    if path = "" then [] else (path, parent.or (pkname.filter (· ≠ ""))) :: listingAll children (some path)

def listingAll : List Tree → Option String → List (String × Option String)
  | [], _ => []
  | t :: rest, parent => t.listing parent ++ listingAll rest parent

end

def device (contents : String → Contents) (entry : String × Option String) : BlockDevice :=
  { path := entry.1
    kind := (contents entry.1).kind
    fstype := (contents entry.1).fstype.filter (· ≠ "")
    mountpoints := ((contents entry.1).mountpoints.filterMap id).filter (· ≠ "")
    parentPath := entry.2 }

theorem asStr_optional (o : Option String) : (optional o).asStr = o := by
  cases o <;> rfl

theorem filterMap_asStr (l : List (Option String)) : (l.map optional).filterMap Value.asStr = l.filterMap id := by
  rw [List.filterMap_map]
  exact List.filterMap_congr fun o _ => asStr_optional o

theorem walk_fieldsOf (contents : String → Contents) (path : String) (pkname parent : Option String)
    (rest : List (String × Value)) (hpath : path ≠ "") :
    walk (.object (fieldsOf contents path pkname ++ rest)) parent =
      device contents (path, parent.or (pkname.filter (· ≠ ""))) :: walkFields rest path := by
  have hstr : (Value.object (fieldsOf contents path pkname ++ rest)).str "path" = some path := rfl
  have htype : (Value.object (fieldsOf contents path pkname ++ rest)).str "type" = some (contents path).kind := rfl
  have hfstype : (Value.object (fieldsOf contents path pkname ++ rest)).str "fstype" = (contents path).fstype :=
    asStr_optional _
  have hpkname : (Value.object (fieldsOf contents path pkname ++ rest)).str "pkname" = pkname := asStr_optional _
  have hmounts : (Value.object (fieldsOf contents path pkname ++ rest)).strings "mountpoints" =
      (contents path).mountpoints.filterMap id := filterMap_asStr _
  rw [walk, hstr, htype, hfstype, hpkname, hmounts, Option.getD_some, if_neg hpath]
  rfl

theorem walkFields_childrenField (items : List Value) (path : String) :
    walkFields (childrenField items) path = walkItems items (some path) := by
  cases items with
  | nil => rw [childrenField, walkFields, walkItems]
  | cons child rest => simp only [childrenField, walkFields, if_true, walkArray]

mutual

theorem walk_json (contents : String → Contents) : ∀ (t : Tree) (parent : Option String),
    walk (t.json contents) parent = (t.listing parent).map (device contents)
  | .node path pkname children, parent => by
    rw [Tree.json, Tree.listing]
    by_cases hpath : path = ""
    · subst hpath
      rw [if_pos rfl, walk]
      rfl
    · rw [if_neg hpath, walk_fieldsOf contents path pkname parent _ hpath, List.map_cons,
        walkFields_childrenField, walkItems_jsonAll contents children (some path)]

theorem walkItems_jsonAll (contents : String → Contents) : ∀ (forest : List Tree) (parent : Option String),
    walkItems (jsonAll contents forest) parent = (listingAll forest parent).map (device contents)
  | [], parent => by simp [jsonAll, walkItems, listingAll]
  | t :: rest, parent => by
    rw [jsonAll, walkItems, listingAll, List.map_append, walk_json contents t parent,
      walkItems_jsonAll contents rest parent]

end

theorem parse_lsblk (contents : String → Contents) (forest : List Tree) :
    parse (lsblk contents forest) = .ok ((listingAll forest none).map (device contents)) := by
  change Except.ok (walkItems (jsonAll contents forest) none) = _
  rw [walkItems_jsonAll]

/-! ### The devices a layout touches -/

mutual

def Tree.within (given : List String) (inside : Bool) : Tree → List String
  | .node path _ children =>
    let inside := inside || path ∈ given
    (if inside then [path] else []) ++ withinAll given inside children

def withinAll (given : List String) (inside : Bool) : List Tree → List String
  | [] => []
  | t :: rest => t.within given inside ++ withinAll given inside rest

end

def denotes (links : String → Option String) (target : String) : String := (links target).getD target

def touched (forest : List Tree) (links : String → Option String) (targets : List String) : List String :=
  withinAll (targets.map (denotes links)) false forest

def Under (root mp : String) : Prop := mp = root ∨ startsWith mp (root ++ "/") = true

instance (root mp : String) : Decidable (Under root mp) := inferInstanceAs (Decidable (_ ∨ _))

/-- The device is in use: mounted for a volume or for the system, or part of an LVM or ZFS pool. -/
def Active (roots : List String) (c : Contents) : Prop :=
  (∃ mp, some mp ∈ c.mountpoints ∧ mp ≠ "" ∧ ((∃ root ∈ roots, Under root mp) ∨ isSystemMount mp = true)) ∨
    c.fstype = some "LVM2_member" ∨ c.fstype = some "zfs_member"

def SafeMeansIdle (contents : String → Contents) (forest : List Tree) (links : String → Option String)
    (targets roots : List String) : Prop :=
  ∀ devices, parse (lsblk contents forest) = .ok devices → classifyDiskLayout targets devices roots = .safe →
    ∀ p ∈ touched forest links targets, ¬ Active roots (contents p)

/-! ### The devices the classifier finds -/

/-- The `k`-th ancestor from a parent on, each the parent that the first place lists. -/
def ancestor (listed : List (String × Option String)) : Nat → Option String → Option String
  | 0, parent => parent
  | k + 1, parent => ancestor listed k (parent.bind fun p => (listed.find? (·.1 = p)).bind (·.2))

/-- The path, or one of the first nine ancestors from the parent on, is written as a target. -/
def Reaches (listed : List (String × Option String)) (targets : List String) (entry : String × Option String) : Prop :=
  entry.1 ∈ targets ∨ ∃ k < 9, ∃ t ∈ targets, ancestor listed k entry.2 = some t

def Found (listed : List (String × Option String)) (targets : List String) (p : String) : Prop :=
  ∃ parent, (p, parent) ∈ listed ∧ Reaches listed targets (p, parent)

section Verdicts

variable {contents : String → Contents} {listed : List (String × Option String)} {targets roots : List String}

theorem parentOf_device (p : String) :
    parentOf (listed.map (device contents)) p = (listed.find? (·.1 = p)).bind (·.2) := by
  unfold parentOf
  rw [List.find?_map, Option.bind_map]
  rfl

theorem startsWith_of_under {root mp : String} (h : Under root mp) : startsWith mp root = true := by
  unfold startsWith
  rw [List.isPrefixOf_iff_prefix]
  rcases h with rfl | h
  · exact List.prefix_refl _
  · unfold startsWith at h
    rw [List.isPrefixOf_iff_prefix, String.toList_append] at h
    exact (List.prefix_append _ _).trans h

theorem climb_iff (n : Nat) (parent : Option String) : climb (listed.map (device contents)) targets n parent = true ↔
    ∃ k < n, ∃ t ∈ targets, ancestor listed k parent = some t := by
  induction n generalizing parent with
  | zero =>
    constructor
    · intro h
      cases parent <;> exact nomatch h
    · rintro ⟨k, hk, -⟩
      exact absurd hk (Nat.not_lt_zero k)
  | succ n ih =>
    cases parent with
    | none =>
      have hnone : ∀ k, ancestor listed k none = none := by
        intro k
        induction k with
        | zero => rfl
        | succ k ihk => exact ihk
      constructor
      · exact fun h => nomatch h
      · rintro ⟨k, -, t, -, ht⟩
        rw [hnone k] at ht
        exact nomatch ht
    | some p =>
      rw [climb, Bool.or_eq_true_iff, decide_eq_true_eq, ih, parentOf_device]
      constructor
      · rintro (hp | ⟨k, hk, t, ht, hancestor⟩)
        · exact ⟨0, Nat.succ_pos n, p, hp, rfl⟩
        · exact ⟨k + 1, Nat.succ_lt_succ hk, t, ht, hancestor⟩
      · rintro ⟨k, hk, t, ht, hancestor⟩
        cases k with
        | zero =>
          cases hancestor
          exact .inl ht
        | succ k => exact .inr ⟨k, Nat.lt_of_succ_lt_succ hk, t, ht, hancestor⟩

theorem classifyDevice_of_active {entry : String × Option String} (h : Active roots (contents entry.1)) :
    classifyDevice (device contents entry) roots ≠ none := by
  intro hnone
  unfold classifyDevice at hnone
  rw [Option.or_eq_none_iff, List.findSome?_eq_none_iff] at hnone
  obtain ⟨hmounts, hfstype⟩ := hnone
  rcases h with ⟨mp, hmp, hne, huse⟩ | hlvm | hzfs
  · have hmem : mp ∈ (device contents entry).mountpoints := by
      refine List.mem_filter.mpr ⟨List.mem_filterMap.mpr ⟨some mp, hmp, rfl⟩, decide_eq_true hne⟩
    have hmount := hmounts mp hmem
    unfold classifyMount at hmount
    rw [if_neg hne] at hmount
    split at hmount
    · exact nomatch hmount
    · rename_i hroots
      rcases huse with ⟨root, hroot, hunder⟩ | hsystem
      · exact hroots (List.any_eq_true.mpr ⟨root, hroot, startsWith_of_under hunder⟩)
      · rw [if_pos hsystem] at hmount
        exact nomatch hmount
  · unfold classifyFstype device at hfstype
    rw [hlvm] at hfstype
    exact nomatch hfstype
  · unfold classifyFstype device at hfstype
    rw [hzfs] at hfstype
    exact nomatch hfstype

theorem classifyDevice_of_blank {entry : String × Option String} {kind : String}
    (h : contents entry.1 = ⟨kind, none, []⟩) : classifyDevice (device contents entry) roots = none := by
  unfold classifyDevice classifyFstype device
  rw [h]
  rfl

theorem classifyDevice_ne_safe (dev : BlockDevice) : classifyDevice dev roots ≠ some .safe := by
  intro h
  unfold classifyDevice at h
  rw [Option.or_eq_some_iff] at h
  rcases h with h | ⟨-, h⟩
  · obtain ⟨mp, -, hmount⟩ := List.exists_of_findSome?_eq_some h
    unfold classifyMount at hmount
    split at hmount
    · exact nomatch hmount
    · split at hmount
      · exact nomatch hmount
      · split at hmount <;> exact nomatch hmount
  · unfold classifyFstype at h
    split at h
    · exact nomatch h
    · split at h <;> exact nomatch h

theorem isWithinTargets_iff (entry : String × Option String) :
    isWithinTargets (listed.map (device contents)) targets (device contents entry) = true ↔
      Reaches listed targets entry := by
  unfold isWithinTargets Reaches
  rw [Bool.or_eq_true_iff, decide_eq_true_eq, climb_iff]
  rfl

theorem classifyDiskLayout_eq_safe_iff : classifyDiskLayout targets (listed.map (device contents)) roots = .safe ↔
    targets ≠ [] ∧ ∀ entry ∈ listed, Reaches listed targets entry →
      classifyDevice (device contents entry) roots = none := by
  unfold classifyDiskLayout
  split
  · rename_i hempty
    exact iff_of_false (fun h => nomatch h) (fun h => h.1 hempty)
  · rename_i htargets
    constructor
    · intro h
      refine ⟨htargets, fun entry hentry hreaches => ?_⟩
      cases hfound : (listed.map (device contents)).findSome? fun dev =>
          if isWithinTargets (listed.map (device contents)) targets dev then classifyDevice dev roots else none with
      | none =>
        have hdev := List.findSome?_eq_none_iff.mp hfound _ (List.mem_map_of_mem hentry)
        rwa [if_pos ((isWithinTargets_iff entry).mpr hreaches)] at hdev
      | some verdict =>
        -- A verdict that a device gives is not safe.
        rw [hfound] at h
        obtain ⟨dev, -, hdev⟩ := List.exists_of_findSome?_eq_some hfound
        split at hdev
        · cases h
          exact absurd hdev (classifyDevice_ne_safe dev)
        · exact nomatch hdev
    · rintro ⟨-, h⟩
      rw [List.findSome?_eq_none_iff.mpr]
      · rfl
      · intro dev hdev
        obtain ⟨entry, hentry, rfl⟩ := List.mem_map.mp hdev
        split
        · rename_i hwithin
          exact h entry hentry ((isWithinTargets_iff entry).mp hwithin)
        · rfl

end Verdicts

def loneVolume (p q : String) : Contents := if q = p then ⟨"disk", some "LVM2_member", []⟩ else ⟨"disk", none, []⟩

mutual

theorem Tree.within_nil : ∀ t : Tree, t.within [] false = []
  | .node path pkname children => by
    rw [Tree.within]
    exact withinAll_nil children

theorem withinAll_nil : ∀ forest : List Tree, withinAll [] false forest = []
  | [] => by rw [withinAll]
  | t :: rest => by rw [withinAll, Tree.within_nil t, withinAll_nil rest, List.append_nil]

end

theorem targets_ne_nil {forest : List Tree} {links : String → Option String} {targets : List String} {p : String}
    (h : p ∈ touched forest links targets) : targets ≠ [] := by
  rintro rfl
  unfold touched at h
  rw [List.map_nil, withinAll_nil] at h
  exact List.not_mem_nil h

/-- **When a safe verdict means that nothing in use is destroyed.** It does, whatever the devices hold, if and only if
each device that the layout touches is written as a target, or has one among its first nine ancestors by first listing.
-/
theorem safe_means_idle_iff (forest : List Tree) (links : String → Option String) (targets roots : List String) :
    (∀ contents, SafeMeansIdle contents forest links targets roots) ↔
      ∀ p ∈ touched forest links targets, Found (listingAll forest none) targets p := by
  constructor
  · -- A device that is not found may be a physical volume while all others are blank.
    intro h p hp
    by_contra hnot
    have hsafe : classifyDiskLayout targets ((listingAll forest none).map (device (loneVolume p))) roots = .safe := by
      refine classifyDiskLayout_eq_safe_iff.mpr ⟨targets_ne_nil hp, fun entry hentry hreaches => ?_⟩
      refine classifyDevice_of_blank (if_neg fun heq => hnot ⟨entry.2, ?_⟩)
      subst heq
      exact ⟨hentry, hreaches⟩
    exact h (loneVolume p) _ (parse_lsblk _ _) hsafe p hp (.inr (.inl (by rw [loneVolume, if_pos rfl])))
  · intro h contents devices hparse hsafe p hp hactive
    rw [parse_lsblk] at hparse
    cases hparse
    obtain ⟨parent, hlisted, hreaches⟩ := h p hp
    have hnone := (classifyDiskLayout_eq_safe_iff.mp hsafe).2 (p, parent) hlisted hreaches
    exact absurd hnone (classifyDevice_of_active hactive)

def disk : Tree := .node "/dev/sda" none [.node "/dev/sda1" (some "/dev/sda") []]

def systemDisk (p : String) : Contents :=
  if p = "/dev/sda1" then ⟨"part", some "ext4", [some "/"]⟩ else ⟨"disk", none, []⟩

def byId (target : String) : Option String := if target = "/dev/disk/by-id/ata-system" then some "/dev/sda" else none

/-- A layout that names the system disk by its serial number is safe for the classifier. -/
theorem system_disk_by_id_safe :
    ¬ SafeMeansIdle systemDisk [disk] byId ["/dev/disk/by-id/ata-system"] kcoreVolumeRoots := by
  intro h
  refine h _ (parse_lsblk _ _) ?_ "/dev/sda1" ?_ ?_
  · rfl
  · decide
  · exact .inl ⟨"/", by decide, by decide, .inr rfl⟩

/-- A layout is accepted exactly if it names a target and would be accepted for each of its targets alone. -/
theorem safe_iff_each_safe (contents : String → Contents) (listed : List (String × Option String))
    (targets roots : List String) : classifyDiskLayout targets (listed.map (device contents)) roots = .safe ↔
      targets ≠ [] ∧ ∀ t ∈ targets, classifyDiskLayout [t] (listed.map (device contents)) roots = .safe := by
  have hreaches : ∀ entry, Reaches listed targets entry ↔ ∃ t ∈ targets, Reaches listed [t] entry := by
    intro entry
    simp only [Reaches, List.mem_singleton, exists_eq_left]
    constructor
    · rintro (hmem | ⟨k, hk, t, ht, hancestor⟩)
      · exact ⟨entry.1, hmem, .inl rfl⟩
      · exact ⟨t, ht, .inr ⟨k, hk, hancestor⟩⟩
    · rintro ⟨t, ht, rfl | ⟨k, hk, hancestor⟩⟩
      · exact .inl ht
      · exact .inr ⟨k, hk, t, ht, hancestor⟩
  simp only [classifyDiskLayout_eq_safe_iff, hreaches]
  constructor
  · rintro ⟨hne, h⟩
    exact ⟨hne, fun t ht => ⟨List.cons_ne_nil _ _, fun entry hentry hr => h entry hentry ⟨t, ht, hr⟩⟩⟩
  · rintro ⟨hne, h⟩
    exact ⟨hne, fun entry hentry ⟨t, ht, hr⟩ => (h t ht).2 entry hentry hr⟩

end Kcore.Disko
