import Kcore.Lvm.UnitName

/-!
# Mount units

The text of a mount unit is put together from the device, the mount point and the file system. systemd reads it line by
line: a backslash at the end of a line joins it with the next one, a value loses the blanks around it, and `%` with a
character behind it stands for something else. `Plain` says of a text that it comes through as it is; `values_iff` says
that what systemd reads is what was given exactly if the mount point and the device are plain.
-/

namespace Kcore.Lvm

/-! ### The source -/

def normalizeFsType (fsType : String) : Except String String :=
  let fs := toAsciiLowercase (trim fsType)
  if fs = "ext4" then .ok "ext4"
  else if fs = "xfs" then .ok "xfs"
  else .error ("fs_type must be ext4 or xfs, got " ++ fs)

def mountUnitContents (device mountPoint fsType : String) : String :=
  "[Unit]\nDescription=kcore volume " ++ mountPoint ++ "\n\n[Mount]\nWhat=" ++ device ++ "\nWhere=" ++ mountPoint ++
    "\nType=" ++ fsType ++ "\nOptions=defaults\n\n[Install]\nWantedBy=multi-user.target\n"

/-! ### Reading a unit file -/

abbrev Line := List Char

def isEol (c : Char) : Bool := c == '\n' || c == '\r'

def isBlank (c : Char) : Bool := c == ' ' || c == '\t' || isEol c

def strip (line : Line) : Line := ((line.dropWhile isBlank).reverse.dropWhile isBlank).reverse

def escaped (line : Line) : Bool := line.foldl (fun esc c => !esc && c == '\\') false

/-- The lines with those joined that belong together; `pending` is what the next line belongs to. -/
def logical : Option Line → List Line → List Line
  | none, [] => []
  | some pending, [] => [pending]
  | pending, line :: lines =>
    let line := line.dropWhile isBlank
    if line.head? = some '#' ∨ line.head? = some ';' then logical pending lines
    else
      let line := pending.getD [] ++ line
      if escaped line then logical (some (line.dropLast ++ [' '])) lines else line :: logical none lines

structure Entry where
  header : Line
  key : Line
  value : Line

def entries : Line → List Line → List Entry
  | _, [] => []
  | header, line :: lines =>
    if line.head? = some '[' then entries ((line.drop 1).takeWhile (· ≠ ']')) lines
    else if '=' ∈ line then
      ⟨header, strip (line.takeWhile (· ≠ '=')), strip ((line.dropWhile (· ≠ '=')).drop 1)⟩ :: entries header lines
    else entries header lines

/-- What a value stands for; `specifier` gives what `%` and a character stand for. -/
def expand (specifier : Char → Option Line) : Line → Line
  | c :: d :: cs =>
    if c = '%' then (specifier d).getD ['%', d] ++ expand specifier cs else c :: expand specifier (d :: cs)
  | cs => cs

def mount : Line := "Mount".toList

def ofKey (key : Line) (es : List Entry) : List Entry := es.filter fun e => e.header = mount ∧ e.key = key

def values (specifier : Char → Option Line) (text : String) (key : Line) : List Line :=
  (ofKey key (entries [] (logical none (text.toList.splitOnP isEol)))).map fun e => expand specifier e.value

/-- The text comes through the unit file as it is: it has no end of a line, does not end in a lone backslash, and has no
`%` before another character. -/
def Plain (text : Line) : Prop := text.all (fun c => !isEol c) = true ∧ escaped text = false ∧ '%' ∉ text.dropLast

instance (text : Line) : Decidable (Plain text) := inferInstanceAs (Decidable (_ ∧ _))

/-! ### Lines -/

theorem splitOnP_flatMap {lines : List Line} (h : ∀ line ∈ lines, line.all (fun c => !isEol c) = true) :
    (lines.flatMap (· ++ ['\n'])).splitOnP isEol = lines ++ [[]] := by
  induction lines with
  | nil => rfl
  | cons line lines ih =>
    have hline : ∀ c ∈ line, isEol c = false := by
      intro c hc
      have hall := List.all_eq_true.mp (h line List.mem_cons_self) c hc
      rwa [Bool.not_eq_true'] at hall
    rw [List.flatMap_cons, List.append_assoc, List.singleton_append,
      List.splitOnP_append_cons_of_forall_mem hline '\n' rfl, ih fun l hl => h l (List.mem_cons_of_mem line hl)]
    rfl

theorem escaped_append_blank (pending line : Line) : escaped (pending ++ [' '] ++ line) = escaped line := by
  unfold escaped
  rw [List.foldl_append, List.foldl_append, List.foldl_cons, List.foldl_nil]
  congr 1
  simp

def setting (key value : Line) : Line := key ++ '=' :: value

structure IsKey (key : Line) : Prop where
  ne_nil : key ≠ []
  head : ∀ c ∈ key.head?, isBlank c = false ∧ c ≠ '#' ∧ c ≠ ';' ∧ c ≠ '['
  plain : '=' ∉ key ∧ '\\' ∉ key

def Stands (line : Line) : Prop :=
  line.dropWhile isBlank = line ∧ ¬ (line.head? = some '#' ∨ line.head? = some ';')

variable {key value line : Line}

theorem stands_setting (hkey : IsKey key) (value : Line) : Stands (setting key value) := by
  obtain ⟨c, cs, rfl⟩ := List.exists_cons_of_ne_nil hkey.ne_nil
  obtain ⟨hblank, hhash, hsemi, -⟩ := hkey.head c rfl
  refine ⟨List.dropWhile_cons_of_neg (Bool.eq_false_iff.mp hblank), ?_⟩
  rintro (h | h)
  · exact hhash (Option.some.inj h)
  · exact hsemi (Option.some.inj h)

theorem escaped_of_no_backslash (h : '\\' ∉ line) : escaped line = false := by
  unfold escaped
  induction line with
  | nil => rfl
  | cons c line ih =>
    rw [List.mem_cons, not_or] at h
    obtain ⟨hc, hline⟩ := h
    have hne : (c == '\\') = false := beq_false_of_ne fun he => hc he.symm
    rw [List.foldl_cons, hne, Bool.and_false]
    exact ih hline

theorem escaped_setting (hkey : IsKey key) (value : Line) : escaped (setting key value) = escaped value := by
  have hfalse := escaped_of_no_backslash hkey.plain.2
  unfold escaped at *
  rw [setting, List.foldl_append, hfalse, List.foldl_cons]
  rfl

theorem ne_nil_of_escaped (h : escaped line = true) : line ≠ [] := by
  rintro rfl
  exact absurd h Bool.false_ne_true

theorem logical_line (hline : Stands line) (h : escaped line = false) (lines : List Line) :
    logical none (line :: lines) = line :: logical none lines := by
  rw [logical]
  dsimp only [Option.getD_none]
  rw [hline.1, if_neg hline.2, List.nil_append, h, if_neg Bool.false_ne_true]

theorem logical_setting (hkey : IsKey key) (value : Line) (lines : List Line) :
    logical none (setting key value :: lines) =
      if escaped value then logical (some (setting key (value.dropLast ++ [' ']))) lines
      else setting key value :: logical none lines := by
  have hline := stands_setting hkey value
  rw [logical]
  dsimp only [Option.getD_none]
  rw [hline.1, if_neg hline.2, List.nil_append, escaped_setting hkey]
  split
  · rename_i hesc
    have hlast : (setting key value).dropLast ++ [' '] = setting key (value.dropLast ++ [' ']) := by
      rw [setting, List.dropLast_append_of_ne_nil (List.cons_ne_nil _ _),
        List.dropLast_cons_of_ne_nil (ne_nil_of_escaped hesc), List.append_assoc]
      rfl
    rw [hlast]
  · rfl

theorem logical_pending (value : Line) (hline : Stands line) (lines : List Line) :
    logical (some (setting key (value ++ [' ']))) (line :: lines) =
      if escaped line then logical (some (setting key (value ++ [' '] ++ line.dropLast ++ [' ']))) lines
      else setting key (value ++ [' '] ++ line) :: logical none lines := by
  have hjoin : setting key (value ++ [' ']) ++ line = (key ++ '=' :: value) ++ [' '] ++ line := by
    simp [setting]
  have hset : setting key (value ++ [' '] ++ line) = (key ++ '=' :: value) ++ [' '] ++ line := by
    simp [setting]
  rw [logical]
  dsimp only [Option.getD_some]
  rw [hline.1, if_neg hline.2, hjoin, escaped_append_blank, ← hset]
  split
  · rename_i hesc
    have hlast : (setting key (value ++ [' '] ++ line)).dropLast ++ [' '] =
        setting key (value ++ [' '] ++ line.dropLast ++ [' ']) := by
      rw [hset, List.dropLast_append_of_ne_nil (ne_nil_of_escaped hesc)]
      simp [setting]
    rw [hlast]
  · rfl

theorem entries_setting (hkey : IsKey key) (header value : Line) (lines : List Line) :
    entries header (setting key value :: lines) = ⟨header, strip key, strip value⟩ :: entries header lines := by
  have hmem : ∀ c ∈ key, decide (c ≠ '=') = true := fun c hc => decide_eq_true fun he => hkey.plain.1 (he ▸ hc)
  have hhead : (setting key value).head? ≠ some '[' := by
    obtain ⟨c, cs, rfl⟩ := List.exists_cons_of_ne_nil hkey.ne_nil
    exact fun h => (hkey.head c rfl).2.2.2 (Option.some.inj h)
  have hsign : '=' ∈ setting key value := List.mem_append_right key List.mem_cons_self
  rw [entries, if_neg hhead, if_pos hsign, setting, List.takeWhile_append_of_pos hmem,
    List.dropWhile_append_of_pos hmem, List.takeWhile_cons_of_neg (by simp), List.dropWhile_cons_of_neg (by simp),
    List.append_nil]
  rfl

/-! ### The lines of a mount unit -/

def description : Line := "Description".toList
def what : Line := "What".toList
def wher : Line := "Where".toList
def type : Line := "Type".toList

def optionLines : List Line :=
  ["Options=defaults".toList, [], "[Install]".toList, "WantedBy=multi-user.target".toList]

def lastLines : List Line := optionLines ++ [[]]

def unitLines (device mountPoint fsType : Line) (last : List Line) : List Line :=
  "[Unit]".toList :: setting description ("kcore volume ".toList ++ mountPoint) :: [] :: "[Mount]".toList ::
    setting what device :: setting wher mountPoint :: setting type fsType :: last

theorem isKey_cons {c : Char} {rest : Line} (hhead : isBlank c = false ∧ c ≠ '#' ∧ c ≠ ';' ∧ c ≠ '[')
    (hplain : '=' ∉ c :: rest ∧ '\\' ∉ c :: rest) : IsKey (c :: rest) := by
  refine ⟨List.cons_ne_nil c rest, fun d hd => ?_, hplain⟩
  obtain rfl : c = d := Option.some.inj hd
  exact hhead

theorem isKey_description : IsKey description := isKey_cons (by decide) (by decide)
theorem isKey_what : IsKey what := isKey_cons (by decide) (by decide)
theorem isKey_wher : IsKey wher := isKey_cons (by decide) (by decide)
theorem isKey_type : IsKey type := isKey_cons (by decide) (by decide)

theorem logical_lastLines : logical none lastLines = lastLines := by decide

def mountLines (device mountPoint fsType : Line) : List Line :=
  logical none (setting what device :: setting wher mountPoint :: setting type fsType :: lastLines)

theorem ofKey_unitLines (device mountPoint fsType key : Line) :
    ofKey key (entries [] (logical none (unitLines device mountPoint fsType lastLines))) =
      ofKey key (entries mount (mountLines device mountPoint fsType)) := by
  have hesc : escaped ("kcore volume ".toList ++ mountPoint) = escaped mountPoint := rfl
  have hempty : Stands [] := ⟨rfl, by decide⟩
  have hhead : ∀ lines header, entries header ("[Mount]".toList :: lines) = entries mount lines := fun _ _ => rfl
  have hskip : ∀ lines header, entries header ([] :: lines) = entries header lines := fun _ _ => rfl
  have hother : ∀ value es, ofKey key (⟨"Unit".toList, strip description, value⟩ :: es) = ofKey key es := by
    intro value es
    have hne : "Unit".toList ≠ mount := by decide
    exact List.filter_cons_of_neg fun h => hne (of_decide_eq_true h).1
  have hunit : ∀ lines header, entries header ("[Unit]".toList :: lines) = entries "Unit".toList lines :=
    fun _ _ => rfl
  rw [unitLines, logical_line ⟨rfl, by decide⟩ rfl, hunit, logical_setting isKey_description, hesc]
  split
  · rw [logical_pending _ hempty, if_neg (by decide), entries_setting isKey_description, hother,
      logical_line ⟨rfl, by decide⟩ rfl, hhead, mountLines]
  · rw [entries_setting isKey_description, hother, logical_line hempty rfl, hskip, logical_line ⟨rfl, by decide⟩ rfl,
      hhead, mountLines]

theorem ofKey_lastLines (hkey : key = what ∨ key = wher ∨ key = type) : ofKey key (entries mount lastLines) = [] := by
  rcases hkey with rfl | rfl | rfl <;> decide

theorem ofKey_setting {key' : Line} (hkey : IsKey key) (hstrip : strip key = key) (value : Line) (lines : List Line) :
    ofKey key' (entries mount (setting key value :: lines)) =
      (if key = key' then [⟨mount, key, strip value⟩] else []) ++ ofKey key' (entries mount lines) := by
  rw [entries_setting hkey, hstrip, ofKey, List.filter_cons, ← ofKey]
  by_cases h : key = key'
  · rw [if_pos h, if_pos (decide_eq_true ⟨rfl, h⟩)]
    rfl
  · rw [if_neg h, if_neg (by simp [h])]
    rfl

section Cases

variable {device mountPoint fsType : Line} (hf : escaped fsType = false)

include hf

theorem mountLines_plain (hd : escaped device = false) (hm : escaped mountPoint = false) :
    mountLines device mountPoint fsType =
      setting what device :: setting wher mountPoint :: setting type fsType :: lastLines := by
  rw [mountLines, logical_setting isKey_what, hd, if_neg Bool.false_ne_true, logical_setting isKey_wher, hm,
    if_neg Bool.false_ne_true, logical_setting isKey_type, hf, if_neg Bool.false_ne_true, logical_lastLines]

theorem ofKey_plain (hd : escaped device = false) (hm : escaped mountPoint = false) :
    ofKey what (entries mount (mountLines device mountPoint fsType)) = [⟨mount, what, strip device⟩] ∧
    ofKey wher (entries mount (mountLines device mountPoint fsType)) = [⟨mount, wher, strip mountPoint⟩] ∧
    ofKey type (entries mount (mountLines device mountPoint fsType)) = [⟨mount, type, strip fsType⟩] := by
  have hstrip : strip what = what ∧ strip wher = wher ∧ strip type = type := by decide
  have hne : what ≠ wher ∧ what ≠ type ∧ wher ≠ type := by decide
  have hone : ∀ key, key = what ∨ key = wher ∨ key = type →
      ofKey key (entries mount (mountLines device mountPoint fsType)) =
        (if what = key then [⟨mount, what, strip device⟩] else []) ++
        ((if wher = key then [⟨mount, wher, strip mountPoint⟩] else []) ++
        (if type = key then [⟨mount, type, strip fsType⟩] else [])) := by
    intro key hkey
    rw [mountLines_plain hf hd hm, ofKey_setting isKey_what hstrip.1, ofKey_setting isKey_wher hstrip.2.1,
      ofKey_setting isKey_type hstrip.2.2, ofKey_lastLines hkey, List.append_nil]
  refine ⟨?_, ?_, ?_⟩
  · rw [hone what (Or.inl rfl), if_pos rfl, if_neg hne.1.symm, if_neg hne.2.1.symm]
    rfl
  · rw [hone wher (Or.inr (Or.inl rfl)), if_neg hne.1, if_pos rfl, if_neg hne.2.2.symm]
    rfl
  · rw [hone type (Or.inr (Or.inr rfl)), if_neg hne.2.1, if_neg hne.2.2, if_pos rfl]
    rfl

theorem wher_lost (hd : escaped device = true) :
    ofKey wher (entries mount (mountLines device mountPoint fsType)) = [] := by
  have hlast := ofKey_lastLines (Or.inr (Or.inl rfl) : wher = what ∨ wher = wher ∨ wher = type)
  have hstrip : strip what = what ∧ strip type = type := by decide
  have hne : what ≠ wher ∧ type ≠ wher := by decide
  rw [mountLines, logical_setting isKey_what, hd, if_pos rfl, logical_pending _ (stands_setting isKey_wher mountPoint)]
  split
  · rw [logical_pending _ (stands_setting isKey_type fsType), escaped_setting isKey_type, hf,
      if_neg Bool.false_ne_true, logical_lastLines, ofKey_setting isKey_what hstrip.1, if_neg hne.1, hlast]
    rfl
  · rw [logical_setting isKey_type, hf, if_neg Bool.false_ne_true, logical_lastLines,
      ofKey_setting isKey_what hstrip.1, if_neg hne.1, ofKey_setting isKey_type hstrip.2, if_neg hne.2, hlast]
    rfl

theorem type_lost (hd : escaped device = false) (hm : escaped mountPoint = true) :
    ofKey type (entries mount (mountLines device mountPoint fsType)) = [] := by
  have hlast := ofKey_lastLines (Or.inr (Or.inr rfl) : type = what ∨ type = wher ∨ type = type)
  have hstrip : strip what = what ∧ strip wher = wher := by decide
  have hne : what ≠ type ∧ wher ≠ type := by decide
  rw [mountLines, logical_setting isKey_what, hd, if_neg Bool.false_ne_true, logical_setting isKey_wher, hm, if_pos rfl,
    logical_pending _ (stands_setting isKey_type fsType), escaped_setting isKey_type, hf, if_neg Bool.false_ne_true,
    logical_lastLines, ofKey_setting isKey_what hstrip.1, if_neg hne.1, ofKey_setting isKey_wher hstrip.2,
    if_neg hne.2, hlast]
  rfl

end Cases

/-! ### Values -/

theorem strip_sublist (line : Line) : (strip line).Sublist line := by
  have hend := (List.dropWhile_sublist (l := (line.dropWhile isBlank).reverse) isBlank).reverse
  rw [List.reverse_reverse] at hend
  exact hend.trans (List.dropWhile_sublist isBlank)

theorem isEol_logical {pending : Option Line} {lines : List Line}
    (hpending : ∀ line ∈ pending, ∀ c ∈ line, isEol c = false)
    (hlines : ∀ line ∈ lines, ∀ c ∈ line, isEol c = false) :
    ∀ line ∈ logical pending lines, ∀ c ∈ line, isEol c = false := by
  induction lines generalizing pending with
  | nil =>
    cases pending with
    | none => exact fun line hl => absurd hl List.not_mem_nil
    | some p =>
      intro line hl
      rw [List.mem_singleton.mp hl]
      exact hpending p rfl
  | cons l lines ih =>
    have hrest : ∀ line ∈ lines, ∀ c ∈ line, isEol c = false := fun line hl => hlines line (List.mem_cons_of_mem l hl)
    have hjoined : ∀ c ∈ pending.getD [] ++ l.dropWhile isBlank, isEol c = false := by
      intro c hc
      rcases List.mem_append.mp hc with hc | hc
      · cases pending with
        | none => exact absurd hc List.not_mem_nil
        | some p => exact hpending p rfl c hc
      · exact hlines l List.mem_cons_self c ((List.dropWhile_sublist isBlank).subset hc)
    rw [logical]
    dsimp only
    split
    · exact ih hpending hrest
    · split
      · refine ih ?_ hrest
        intro line hl c hc
        rw [Option.mem_some_iff] at hl
        rw [← hl] at hc
        rcases List.mem_append.mp hc with hc | hc
        · exact hjoined c (List.mem_of_mem_dropLast hc)
        · rw [List.mem_singleton.mp hc]
          rfl
      · have hnone : ∀ line ∈ (none : Option Line), ∀ c ∈ line, isEol c = false :=
          fun line hl => absurd hl (Option.not_mem_none line)
        exact List.forall_mem_cons.mpr ⟨hjoined, ih hnone hrest⟩

theorem isEol_entries {header : Line} {lines : List Line} (hlines : ∀ line ∈ lines, ∀ c ∈ line, isEol c = false) :
    ∀ e ∈ entries header lines, ∀ c ∈ e.value, isEol c = false := by
  induction lines generalizing header with
  | nil => exact fun e he => absurd he List.not_mem_nil
  | cons line lines ih =>
    have hrest : ∀ line ∈ lines, ∀ c ∈ line, isEol c = false := fun l hl => hlines l (List.mem_cons_of_mem line hl)
    rw [entries]
    split
    · exact ih hrest
    · split
      · refine List.forall_mem_cons.mpr ⟨?_, ih hrest⟩
        intro c hc
        have hdrop := List.mem_of_mem_drop ((strip_sublist _).subset hc)
        exact hlines line List.mem_cons_self c ((List.dropWhile_sublist _).subset hdrop)
      · exact ih hrest

def nothing (c : Char) : Option Line := if c = '%' then some ['%'] else some []

theorem expand_of_plain (specifier : Char → Option Line) (h : '%' ∉ value.dropLast) :
    expand specifier value = value := by
  induction value with
  | nil => rfl
  | cons c value ih =>
    cases value with
    | nil => rfl
    | cons d cs =>
      rw [List.dropLast_cons_cons, List.mem_cons, not_or] at h
      rw [expand, if_neg fun he => h.1 he.symm, ih h.2]

theorem mem_expand_nothing {c : Char} (h : c ∈ expand nothing value) : c ∈ value := by
  fun_induction expand nothing value with
  | case1 d cs ih =>
    rcases List.mem_append.mp h with h | h
    · unfold nothing at h
      by_cases hd : d = '%'
      · rw [if_pos hd] at h
        rw [List.mem_singleton.mp h]
        exact List.mem_cons_self
      · rw [if_neg hd] at h
        exact absurd h List.not_mem_nil
    · exact List.mem_cons_of_mem _ (List.mem_cons_of_mem d (ih h))
  | case2 a d cs ha ih =>
    rcases List.mem_cons.mp h with rfl | h
    · exact List.mem_cons_self
    · exact List.mem_cons_of_mem a (ih h)
  | case3 cs _ => exact h

theorem length_nothing (d : Char) : ((nothing d).getD ['%', d]).length ≤ 1 := by
  unfold nothing
  split
  · exact Nat.le_refl 1
  · exact Nat.zero_le 1

theorem length_expand_nothing (value : Line) : (expand nothing value).length ≤ value.length := by
  fun_induction expand nothing value with
  | case1 d cs ih =>
    have hone := length_nothing d
    rw [List.length_append, List.length_cons, List.length_cons]
    omega
  | case2 a d cs ha ih => exact Nat.succ_le_succ ih
  | case3 cs _ => exact Nat.le_refl _

theorem plain_of_expand_nothing (h : expand nothing value = value) : '%' ∉ value.dropLast := by
  induction value with
  | nil => exact List.not_mem_nil
  | cons c value ih =>
    cases value with
    | nil => exact List.not_mem_nil
    | cons d cs =>
      rw [expand] at h
      by_cases hc : c = '%'
      · -- What comes out is shorter than the value.
        have hone := length_nothing d
        have hlen := congrArg List.length h
        have hle := length_expand_nothing cs
        rw [if_pos hc, List.length_append, List.length_cons, List.length_cons] at hlen
        omega
      · rw [if_neg hc] at h
        rw [List.dropLast_cons_cons, List.mem_cons, not_or]
        exact ⟨fun he => hc he.symm, ih (List.tail_eq_of_cons_eq h)⟩

theorem toList_mountUnitContents (device mountPoint fsType : String) :
    (mountUnitContents device mountPoint fsType).toList =
      (unitLines device.toList mountPoint.toList fsType.toList optionLines).flatMap (· ++ ['\n']) := by
  have h1 : "[Unit]\nDescription=kcore volume ".toList =
      "[Unit]".toList ++ '\n' :: (description ++ '=' :: "kcore volume ".toList) := by decide
  have h2 : "\n\n[Mount]\nWhat=".toList = '\n' :: '\n' :: ("[Mount]".toList ++ '\n' :: (what ++ ['='])) := by decide
  have h3 : "\nWhere=".toList = '\n' :: (wher ++ ['=']) := by decide
  have h4 : "\nType=".toList = '\n' :: (type ++ ['=']) := by decide
  have h5 : "\nOptions=defaults\n\n[Install]\nWantedBy=multi-user.target\n".toList =
      '\n' :: ("Options=defaults".toList ++ '\n' :: '\n' ::
        ("[Install]".toList ++ '\n' :: ("WantedBy=multi-user.target".toList ++ ['\n']))) := by decide
  -- The fixed parts are long texts, so the text is first taken apart with any texts in their places.
  have hparts : ∀ a b c d e : String, (a ++ mountPoint ++ b ++ device ++ c ++ mountPoint ++ d ++ fsType ++ e).toList =
      a.toList ++ (mountPoint.toList ++ (b.toList ++ (device.toList ++ (c.toList ++ (mountPoint.toList ++
        (d.toList ++ (fsType.toList ++ e.toList))))))) := by
    intro a b c d e
    simp only [String.toList_append, List.append_assoc]
  unfold mountUnitContents
  refine (hparts _ _ _ _ _).trans ?_
  simp only [h1, h2, h3, h4, h5]
  simp only [unitLines, optionLines, setting, List.flatMap_cons, List.flatMap_nil, List.append_assoc, List.cons_append,
    List.nil_append, List.append_nil]

theorem noEol_setting (hkey : key.all (fun c => !isEol c) = true) (hvalue : value.all (fun c => !isEol c) = true) :
    (setting key value).all (fun c => !isEol c) = true := by
  rw [setting, List.all_append, hkey, List.all_cons, hvalue]
  rfl

theorem values_eq {device mountPoint fsType : String} (hd : device.toList.all (fun c => !isEol c) = true)
    (hm : mountPoint.toList.all (fun c => !isEol c) = true) (hf : fsType.toList.all (fun c => !isEol c) = true)
    (specifier : Char → Option Line) (key : Line) :
    values specifier (mountUnitContents device mountPoint fsType) key =
      (ofKey key (entries mount (mountLines device.toList mountPoint.toList fsType.toList))).map fun e =>
        expand specifier e.value := by
  have hfixed : ∀ line ∈ optionLines, line.all (fun c => !isEol c) = true := by decide
  have hvolume : ("kcore volume ".toList ++ mountPoint.toList).all (fun c => !isEol c) = true := by
    rw [List.all_append, hm]
    rfl
  have hlines : ∀ line ∈ unitLines device.toList mountPoint.toList fsType.toList optionLines,
      line.all (fun c => !isEol c) = true := by
    unfold unitLines
    simp only [List.forall_mem_cons]
    exact ⟨by decide, noEol_setting (by decide) hvolume, rfl, by decide, noEol_setting (by decide) hd,
      noEol_setting (by decide) hm, noEol_setting (by decide) hf, hfixed⟩
  have hend : unitLines device.toList mountPoint.toList fsType.toList optionLines ++ [[]] =
      unitLines device.toList mountPoint.toList fsType.toList lastLines := by
    simp only [unitLines, lastLines, List.cons_append]
  rw [values, toList_mountUnitContents, splitOnP_flatMap hlines, hend, ofKey_unitLines]

theorem noEol_of_mem_values {text : String} (h : value ∈ values nothing text key) :
    value.all (fun c => !isEol c) = true := by
  obtain ⟨e, he, rfl⟩ := List.mem_map.mp h
  have hlines : ∀ line ∈ logical none (text.toList.splitOnP isEol), ∀ c ∈ line, isEol c = false :=
    isEol_logical (fun line hl => absurd hl (Option.not_mem_none line)) fun line hl => not_mem_of_mem_splitOnP hl
  have hvalue := isEol_entries hlines e (List.mem_of_mem_filter he)
  rw [List.all_eq_true]
  intro c hc
  rw [hvalue c (mem_expand_nothing hc)]
  rfl

/-! ### What a mount unit means -/

/-- Read as a unit file, the text has one device, one mount point and one type, the given ones, whatever `%` with a
character behind it stands for. -/
def ReadsBack (device mountPoint fsType : String) : Prop :=
  ∀ specifier, specifier '%' = some ['%'] →
    values specifier (mountUnitContents device mountPoint fsType) what = [device.toList] ∧
    values specifier (mountUnitContents device mountPoint fsType) wher = [mountPoint.toList] ∧
    values specifier (mountUnitContents device mountPoint fsType) type = [fsType.toList]

theorem readsBack_iff {device mountPoint fsType : String} (hstrip : strip mountPoint.toList = mountPoint.toList)
    (hfs : fsType = "ext4" ∨ fsType = "xfs") : ReadsBack device mountPoint fsType ↔
      Plain mountPoint.toList ∧ Plain device.toList ∧ strip device.toList = device.toList := by
  have hf : fsType.toList.all (fun c => !isEol c) = true ∧ escaped fsType.toList = false ∧
      strip fsType.toList = fsType.toList ∧ '%' ∉ fsType.toList.dropLast := by
    rcases hfs with rfl | rfl <;> decide
  constructor
  · intro h
    obtain ⟨hwhat, hwher, htype⟩ := h nothing rfl
    have hd := noEol_of_mem_values (hwhat ▸ List.mem_cons_self)
    have hm := noEol_of_mem_values (hwher ▸ List.mem_cons_self)
    rw [values_eq hd hm hf.1] at hwhat hwher htype
    -- A lone backslash at the end of the device would hide the mount point, and one at its end the type.
    have hdesc : escaped device.toList = false := by
      by_contra hesc
      rw [wher_lost hf.2.1 (Bool.not_eq_false _ |>.mp hesc)] at hwher
      cases hwher
    have hmesc : escaped mountPoint.toList = false := by
      by_contra hesc
      rw [type_lost hf.2.1 hdesc (Bool.not_eq_false _ |>.mp hesc)] at htype
      cases htype
    obtain ⟨pwhat, pwher, -⟩ := ofKey_plain hf.2.1 hdesc hmesc
    rw [pwhat, List.map_singleton, List.singleton_inj] at hwhat
    rw [pwher, List.map_singleton, List.singleton_inj, hstrip] at hwher
    have hdstrip : strip device.toList = device.toList := by
      apply (strip_sublist device.toList).eq_of_length_le
      have hle := length_expand_nothing (strip device.toList)
      rwa [hwhat] at hle
    rw [hdstrip] at hwhat
    exact ⟨⟨hm, hmesc, plain_of_expand_nothing hwher⟩, ⟨hd, hdesc, plain_of_expand_nothing hwhat⟩, hdstrip⟩
  · rintro ⟨⟨hm, hmesc, hmp⟩, ⟨hd, hdesc, hdp⟩, hdstrip⟩ specifier -
    obtain ⟨pwhat, pwher, ptype⟩ := ofKey_plain hf.2.1 hdesc hmesc
    rw [values_eq hd hm hf.1, values_eq hd hm hf.1, values_eq hd hm hf.1, pwhat, pwher, ptype]
    simp only [List.map_singleton, hstrip, hdstrip, hf.2.2.1]
    rw [expand_of_plain specifier hmp, expand_of_plain specifier hdp, expand_of_plain specifier hf.2.2.2]
    exact ⟨rfl, rfl, rfl⟩

theorem strip_of_trim {s : String} (h : trim s = s) : strip s.toList = s.toList := by
  have hblank : ∀ c, isBlank c = true → isWhitespace c = true := by
    intro c hc
    simp only [isBlank, isEol, Bool.or_eq_true, beq_iff_eq] at hc
    rcases hc with (rfl | rfl) | rfl | rfl <;> rfl
  have hdrop : ∀ l : Line, l.dropWhile isWhitespace = l → l.dropWhile isBlank = l := by
    intro l hl
    cases l with
    | nil => rfl
    | cons c l =>
      have hc : isWhitespace c = false := by
        by_contra hws
        rw [List.dropWhile_cons_of_pos (Bool.not_eq_false _ |>.mp hws)] at hl
        have hlen := congrArg List.length hl
        have hle := (List.dropWhile_sublist (l := l) isWhitespace).length_le
        rw [List.length_cons] at hlen
        omega
      exact List.dropWhile_cons_of_neg fun hb => Bool.false_ne_true (hc.symm.trans (hblank c hb))
  -- Neither end of the text is taken away, since the whole has the same length.
  have hchars := congrArg String.toList h
  rw [trim, String.toList_ofList] at hchars
  have hlen := congrArg List.length hchars
  have hle := (List.dropWhile_sublist (l := s.toList) isWhitespace).length_le
  have hle' := (List.dropWhile_sublist (l := (s.toList.dropWhile isWhitespace).reverse) isWhitespace).length_le
  rw [List.length_reverse] at hlen hle'
  have hfirst : s.toList.dropWhile isWhitespace = s.toList :=
    (List.dropWhile_sublist isWhitespace).eq_of_length_le (by omega)
  rw [hfirst] at hchars
  have hlast : s.toList.reverse.dropWhile isWhitespace = s.toList.reverse := by
    rw [← List.reverse_inj, hchars, List.reverse_reverse]
  rw [strip, hdrop _ hfirst, hdrop _ hlast, List.reverse_reverse]

/-- The unit is found under its name, no other mount point has this name, and its text says what was given. -/
structure Means (device mountPoint fsType : String) : Prop where
  name : mountUnitName mountPoint = systemdName mountPoint
  distinct : ∀ raw other, validateMountPoint raw = .ok other → components other ≠ components mountPoint →
    mountUnitName other ≠ mountUnitName mountPoint
  text : ReadsBack device mountPoint fsType

theorem normalizeFsType_eq_ok {fsType fs : String} (h : normalizeFsType fsType = .ok fs) :
    fs = "ext4" ∨ fs = "xfs" := by
  unfold normalizeFsType at h
  dsimp only at h
  split_ifs at h
  · cases h
    exact Or.inl rfl
  · cases h
    exact Or.inr rfl

/-- The mount unit of an accepted mount point means the requested mount exactly if the mount point is written with
its components only, has no dot, and comes through the text as the device does. -/
theorem means_iff (raw mountPoint device fsType fs : String) (h : validateMountPoint raw = .ok mountPoint)
    (hfs : normalizeFsType fsType = .ok fs) : Means device mountPoint fs ↔
      ('.' ∉ mountPoint.toList ∧ [] ∉ (relative mountPoint).toList.splitOn '/') ∧
      Plain mountPoint.toList ∧ Plain device.toList ∧ strip device.toList = device.toList := by
  have haccepted := accepted_of_validate h
  have htext : ReadsBack device mountPoint fs ↔ _ :=
    readsBack_iff (strip_of_trim haccepted.trimmed) (normalizeFsType_eq_ok hfs)
  constructor
  · intro hmeans
    exact ⟨haccepted.name_eq_iff.mp hmeans.name, htext.mp hmeans.text⟩
  · rintro ⟨hname, hplain⟩
    refine ⟨haccepted.name_eq_iff.mpr hname, ?_, htext.mpr hplain⟩
    intro raw' other hother hne heq
    exact hne (components_eq_of_name_eq (accepted_of_validate hother) haccepted heq)

theorem plain_mount_point_means : Means "/dev/vg/k8s-local" "/mnt/kcore/k8s-local" "ext4" :=
  (means_iff "/mnt/kcore/k8s-local" "/mnt/kcore/k8s-local" "/dev/vg/k8s-local" "ext4" "ext4" (by decide)
    (by decide)).mpr (by decide)

/-- A dot is escaped, which systemd keeps. -/
theorem dot_is_escaped : validateMountPoint "/mnt/kcore/a.b" = .ok "/mnt/kcore/a.b" ∧
    mountUnitName "/mnt/kcore/a.b" = "mnt-kcore-a\\x2eb.mount" ∧
    systemdName "/mnt/kcore/a.b" = "mnt-kcore-a.b.mount" := by
  decide

end Kcore.Lvm
