import Kcore.Text

/-!
# Mount points and the names of their units

A volume that stays mounted over a restart has a mount unit, which systemd finds by the name that it derives from the
mount point. `mount_unit_name` derives it by hand: it writes a dash for every slash and escapes every byte but letters,
digits, `_` and `:`. systemd looks at the components of the path, so that it sees no empty ones and no `.`, and it keeps
a dot that is not the first character of the name.

Both ways of escaping can be undone byte by byte (`nextByte`), so a name determines the path it was made from.
-/

namespace Kcore.Lvm

/-! ### Mount points -/

def components (path : String) : List (List Char) :=
  (path.toList.splitOn '/').filter fun c => c ≠ [] ∧ c ≠ ['.']

def validatePathUnderRoot (raw root label : String) : Except String String :=
  let trimmed := trim raw
  if trimmed = "" then .error (label ++ " is required")
  else if '\x00' ∈ trimmed.toList then .error (label ++ " must not contain NUL bytes")
  else if ¬ startsWith trimmed "/" then .error (label ++ " must be an absolute path")
  else if ¬ (components root).isPrefixOf (components trimmed) then .error (label ++ " must be under " ++ root)
  else if (components trimmed).any (· = ['.', '.']) then .error (label ++ " must not contain '..' segments")
  else .ok trimmed

def underRoots (raw : String) : List String → String → Except String String
  | [], lastErr => .error lastErr
  | root :: roots, _ =>
    match validatePathUnderRoot raw root "mount_point" with
    | .ok path =>
      if components path = components root then .error ("mount_point must be a directory under " ++ root)
      else .ok path
    | .error err => underRoots raw roots err

def validateMountPoint (mountPoint : String) : Except String String :=
  let raw := trim mountPoint
  if raw = "" then .error "mount_point is required" else underRoots raw ["/var/lib/kcore", "/mnt/kcore"] ""

/-! ### Names -/

/-- A byte in a name: a slash is a dash, and letters, digits, `_`, `:` and, with `dot`, dots stay. -/
def escapeWith (dot : Bool) (byte : UInt8) : List Char :=
  if byte = 0x2F then ['-']
  else if (Char.ofNat byte.toNat).isAlphanum ∨ byte = 0x5F ∨ byte = 0x3A ∨ (dot ∧ byte = 0x2E) then
    [Char.ofNat byte.toNat]
  else ['\\', 'x', Nat.digitChar (byte.toNat / 16), Nat.digitChar (byte.toNat % 16)]

def relative (path : String) : String := String.ofList (path.toList.dropWhile (· = '/'))

def mountUnitName (mountPoint : String) : String :=
  let trimmed := relative (trim mountPoint)
  let out := (asBytes trimmed).flatMap (escapeWith false)
  String.ofList (if out = [] then ['-'] else out) ++ ".mount"

def systemdName (path : String) : String :=
  let out := match asBytes (String.ofList (['/'].intercalate (components path))) with
    | [] => ['-']
    | first :: rest => escapeWith (first ≠ 0x2E) first ++ rest.flatMap (escapeWith true)
  String.ofList out ++ ".mount"

def hexValue (c : Char) : Nat := if c.isDigit then c.toNat - 48 else c.toNat - 87

def nextByte : List Char → Option (UInt8 × List Char)
  | [] => none
  | c :: cs =>
    if c = '-' then some (0x2F, cs)
    else if c = '\\' then some (UInt8.ofNat (hexValue (cs.getD 1 '0') * 16 + hexValue (cs.getD 2 '0')), cs.drop 3)
    else some (UInt8.ofNat c.toNat, cs)

theorem plain_byte : ∀ n < 256, ((Char.ofNat n).isAlphanum ∨ n = 0x5F ∨ n = 0x3A ∨ n = 0x2E) →
    Char.ofNat n ≠ '-' ∧ Char.ofNat n ≠ '\\' ∧ (Char.ofNat n).toNat = n := by
  decide +kernel

theorem hexValue_digitChar : ∀ n < 16, hexValue (Nat.digitChar n) = n := by decide

theorem nextByte_escapeWith (dot : Bool) (byte : UInt8) (cs : List Char) :
    nextByte (escapeWith dot byte ++ cs) = some (byte, cs) := by
  have hlt : byte.toNat < 256 := byte.toNat_lt
  have hval : ∀ n : Nat, n < 256 → (byte = UInt8.ofNat n ↔ byte.toNat = n) := by
    intro n hn
    rw [← UInt8.toNat_inj, UInt8.toNat_ofNat_of_lt' hn]
  rw [escapeWith]
  by_cases hslash : byte = 0x2F
  · rw [if_pos hslash, hslash]
    rfl
  rw [if_neg hslash]
  by_cases hplain : (Char.ofNat byte.toNat).isAlphanum ∨ byte = 0x5F ∨ byte = 0x3A ∨ (dot ∧ byte = 0x2E)
  · have hbyte : (Char.ofNat byte.toNat).isAlphanum ∨ byte.toNat = 0x5F ∨ byte.toNat = 0x3A ∨ byte.toNat = 0x2E := by
      rw [← hval 0x5F (by decide), ← hval 0x3A (by decide), ← hval 0x2E (by decide)]
      exact hplain.imp_right (Or.imp_right (Or.imp_right And.right))
    obtain ⟨hdash, hback, hnat⟩ := plain_byte byte.toNat hlt hbyte
    rw [if_pos hplain, List.singleton_append, nextByte, if_neg hdash, if_neg hback, hnat, UInt8.ofNat_toNat]
  · have hhigh := hexValue_digitChar (byte.toNat / 16) (by omega)
    have hlow := hexValue_digitChar (byte.toNat % 16) (by omega)
    have hsum : byte.toNat / 16 * 16 + byte.toNat % 16 = byte.toNat := by omega
    rw [if_neg hplain]
    change some (UInt8.ofNat (hexValue (Nat.digitChar (byte.toNat / 16)) * 16 +
      hexValue (Nat.digitChar (byte.toNat % 16))), cs) = _
    rw [hhigh, hlow, hsum, UInt8.ofNat_toNat]

theorem flatMap_escapeWith_inj {dot dot' : Bool} {bytes bytes' : List UInt8}
    (h : bytes.flatMap (escapeWith dot) = bytes'.flatMap (escapeWith dot')) : bytes = bytes' := by
  induction bytes generalizing bytes' with
  | nil =>
    cases bytes' with
    | nil => rfl
    | cons b bytes' =>
      have hnext := nextByte_escapeWith dot' b (bytes'.flatMap (escapeWith dot'))
      rw [← List.flatMap_cons, ← h] at hnext
      cases hnext
  | cons a bytes ih =>
    have hnext := nextByte_escapeWith dot a (bytes.flatMap (escapeWith dot))
    rw [← List.flatMap_cons, h] at hnext
    cases bytes' with
    | nil => cases hnext
    | cons b bytes' =>
      rw [List.flatMap_cons, nextByte_escapeWith] at hnext
      simp only [Option.some.injEq, Prod.mk.injEq] at hnext
      rw [hnext.1, ih hnext.2.symm]

/-! ### What is accepted -/

structure Accepted (mountPoint : String) : Prop where
  trimmed : trim mountPoint = mountPoint
  first : ∃ name rest, components mountPoint = name :: rest ∧ name.head? ≠ some '.'

theorem accepted_of_underRoot {raw root path : String} (h : validatePathUnderRoot raw root "mount_point" = .ok path)
    (hroot : ∃ name rest, components root = name :: rest ∧ name.head? ≠ some '.') : Accepted path := by
  unfold validatePathUnderRoot at h
  dsimp only at h
  split_ifs at h with h1 h2 h3 h4 h5
  cases h
  obtain ⟨name, rest, hname, hdot⟩ := hroot
  rw [hname, List.isPrefixOf_iff_prefix] at h4
  obtain ⟨others, hothers⟩ := h4
  exact ⟨trim_trim raw, name, rest ++ others, hothers.symm, hdot⟩

theorem accepted_of_underRoots {raw path lastErr : String} {roots : List String}
    (hroots : ∀ root ∈ roots, ∃ name rest, components root = name :: rest ∧ name.head? ≠ some '.')
    (h : underRoots raw roots lastErr = .ok path) : Accepted path := by
  induction roots generalizing lastErr with
  | nil => cases h
  | cons root roots ih =>
    rw [underRoots] at h
    cases hroot : validatePathUnderRoot raw root "mount_point" with
    | error err =>
      rw [hroot] at h
      exact ih (fun r hr => hroots r (List.mem_cons_of_mem root hr)) h
    | ok path' =>
      rw [hroot] at h
      dsimp only at h
      split_ifs at h
      cases h
      exact accepted_of_underRoot hroot (hroots root List.mem_cons_self)

theorem accepted_of_validate {raw mountPoint : String} (h : validateMountPoint raw = .ok mountPoint) :
    Accepted mountPoint := by
  have hvar : components "/var/lib/kcore" = [['v', 'a', 'r'], ['l', 'i', 'b'], ['k', 'c', 'o', 'r', 'e']] := by decide
  have hmnt : components "/mnt/kcore" = [['m', 'n', 't'], ['k', 'c', 'o', 'r', 'e']] := by decide
  unfold validateMountPoint at h
  dsimp only at h
  split_ifs at h
  refine accepted_of_underRoots ?_ h
  intro root hroot
  simp only [List.mem_cons, List.not_mem_nil, or_false] at hroot
  rcases hroot with rfl | rfl
  · exact ⟨_, _, hvar, by decide⟩
  · exact ⟨_, _, hmnt, by decide⟩

/-! ### The two names compared -/

theorem dot_mem_utf8EncodeChar {c : Char} : 0x2E ∈ String.utf8EncodeChar c ↔ c = '.' := by
  have hchar : c = '.' ↔ c.val.toNat = 0x2E := by
    rw [← Char.toNat_inj]
    rfl
  have hbyte : ∀ n : Nat, (0x2E : UInt8) = UInt8.ofNat n ↔ n % 256 = 0x2E := by
    intro n
    rw [← UInt8.toNat_inj, UInt8.toNat_ofNat']
    exact eq_comm
  rw [hchar]
  unfold String.utf8EncodeChar
  dsimp only
  split_ifs <;> simp only [List.mem_cons, List.not_mem_nil, or_false, hbyte] <;> omega

theorem dot_mem_asBytes {l : List Char} : 0x2E ∈ asBytes (String.ofList l) ↔ '.' ∈ l := by
  rw [asBytes_ofList, List.mem_flatMap]
  simp only [dot_mem_utf8EncodeChar, exists_eq_right]

theorem flatMap_escapeWith_eq_iff {bytes : List UInt8} :
    bytes.flatMap (escapeWith false) = bytes.flatMap (escapeWith true) ↔ 0x2E ∉ bytes := by
  induction bytes with
  | nil => exact iff_of_true rfl List.not_mem_nil
  | cons byte bytes ih =>
    rw [List.flatMap_cons, List.flatMap_cons, List.mem_cons, not_or, ← ih]
    by_cases hdot : byte = 0x2E
    · refine iff_of_false ?_ fun h => h.1 hdot.symm
      intro h
      rw [hdot] at h
      exact absurd (List.head_eq_of_cons_eq h) (by decide)
    · have hsame : escapeWith false byte = escapeWith true byte := by
        unfold escapeWith
        simp only [hdot, and_false]
      rw [hsame, List.append_cancel_left_eq]
      exact ⟨fun h => ⟨fun he => hdot he.symm, h⟩, And.right⟩

theorem mem_dropWhile_slash {c : Char} (hc : c ≠ '/') {l : List Char} : c ∈ l.dropWhile (· = '/') ↔ c ∈ l := by
  induction l with
  | nil => exact Iff.rfl
  | cons d l ih =>
    by_cases hd : d = '/'
    · rw [List.dropWhile_cons_of_pos (by simp [hd]), ih, List.mem_cons]
      exact ⟨Or.inr, fun h => h.resolve_left fun he => hc (he.trans hd)⟩
    · rw [List.dropWhile_cons_of_neg (by simp [hd])]

theorem components_eq (path : String) :
    components path = ((relative path).toList.splitOn '/').filter fun c => c ≠ [] ∧ c ≠ ['.'] := by
  unfold components relative
  rw [String.toList_ofList]
  induction path.toList with
  | nil => rfl
  | cons d l ih =>
    by_cases hd : d = '/'
    · have hsplit : (d :: l).splitOn '/' = [] :: l.splitOn '/' := by
        rw [hd]
        exact List.splitOn_append_cons_self [] l
      rw [List.dropWhile_cons_of_pos (by simp [hd]), hsplit, List.filter_cons_of_neg (by simp), ih]
    · rw [List.dropWhile_cons_of_neg (by simp [hd])]

theorem not_mem_of_mem_splitOn {l part : List Char} (h : part ∈ l.splitOn '/') : '/' ∉ part := by
  intro hmem
  have hfalse := not_mem_of_mem_splitOnP h '/' hmem
  rw [beq_self_eq_true] at hfalse
  exact absurd hfalse.symm Bool.false_ne_true

theorem mem_of_mem_splitOn {l part : List Char} {c : Char} (h : part ∈ l.splitOn '/') (hc : c ∈ part) : c ∈ l := by
  induction l generalizing part with
  | nil =>
    rw [List.splitOn_nil, List.mem_singleton] at h
    exact h ▸ hc
  | cons d l ih =>
    obtain ⟨first, rest, hsplit⟩ := List.exists_cons_of_ne_nil (List.splitOnP_ne_nil (· == '/') l)
    rw [List.splitOn, List.splitOnP_cons_eq_if_modifyHead, hsplit, List.modifyHead_cons] at h
    have hrest : ∀ p ∈ first :: rest, c ∈ p → c ∈ d :: l := by
      intro p hp hcp
      rw [← hsplit] at hp
      exact List.mem_cons_of_mem d (ih hp hcp)
    split at h
    · rcases List.mem_cons.mp h with rfl | h
      · exact absurd hc List.not_mem_nil
      · exact hrest part h hc
    · rcases List.mem_cons.mp h with rfl | h
      · rcases List.mem_cons.mp hc with rfl | hc
        · exact List.mem_cons_self
        · exact hrest first List.mem_cons_self hc
      · exact hrest part (List.mem_cons_of_mem first h) hc

theorem relative_eq_intercalate_iff {path : String} (hne : components path ≠ []) :
    (relative path).toList = ['/'].intercalate (components path) ↔
      ∀ c ∈ (relative path).toList.splitOn '/', c ≠ [] ∧ c ≠ ['.'] := by
  rw [components_eq] at hne ⊢
  generalize (relative path).toList = l at hne ⊢
  constructor
  · intro h
    have hsplit := congrArg (List.splitOn '/') h
    rw [List.splitOn_intercalate '/' (fun c hc => not_mem_of_mem_splitOn (List.mem_of_mem_filter hc)) hne] at hsplit
    intro c hc
    rw [hsplit] at hc
    exact of_decide_eq_true (List.mem_filter.mp hc).2
  · intro h
    rw [List.filter_eq_self.mpr (fun c hc => decide_eq_true (h c hc)), List.intercalate_splitOn]

theorem ofList_mount_inj {l l' : List Char} (h : String.ofList l ++ ".mount" = String.ofList l' ++ ".mount") :
    l = l' := by
  have hchars := congrArg String.toList h
  simp only [String.toList_append, String.toList_ofList] at hchars
  exact List.append_cancel_right hchars

section Accepted

variable {mountPoint : String} (h : Accepted mountPoint)

include h

theorem Accepted.components_ne_nil : components mountPoint ≠ [] := by
  obtain ⟨name, rest, hname, -⟩ := h.first
  rw [hname]
  exact List.cons_ne_nil name rest

theorem Accepted.mountUnitName_eq : mountUnitName mountPoint =
    String.ofList ((asBytes (relative mountPoint)).flatMap (escapeWith false)) ++ ".mount" := by
  have hout : (asBytes (relative mountPoint)).flatMap (escapeWith false) ≠ [] := by
    intro hnil
    have hflat : (asBytes (relative mountPoint)).flatMap (escapeWith false) = [].flatMap (escapeWith false) := hnil
    have hbytes := flatMap_escapeWith_inj hflat
    have hcomponents := components_eq mountPoint
    rw [asBytes_eq_nil.mp hbytes] at hcomponents
    exact h.components_ne_nil hcomponents
  unfold mountUnitName
  dsimp only
  rw [h.trimmed, if_neg hout]

theorem Accepted.systemdName_eq : systemdName mountPoint =
    String.ofList ((asBytes (String.ofList (['/'].intercalate (components mountPoint)))).flatMap (escapeWith true)) ++
      ".mount" := by
  obtain ⟨name, rest, hname, hdot⟩ := h.first
  have hmem : name ∈ components mountPoint := by
    rw [hname]
    exact List.mem_cons_self
  have hne : name ≠ [] := (of_decide_eq_true (List.mem_filter.mp hmem).2).1
  obtain ⟨c, cs, rfl⟩ := List.exists_cons_of_ne_nil hne
  obtain ⟨tail, htail⟩ : ∃ tail, ['/'].intercalate (components mountPoint) = c :: tail := by
    rw [hname]
    cases rest with
    | nil => exact ⟨cs, by simp [List.intercalate]⟩
    | cons r rest => exact ⟨_, rfl⟩
  unfold systemdName
  rw [htail, asBytes_ofList, List.flatMap_cons]
  cases hbytes : String.utf8EncodeChar c with
  | nil => exact absurd hbytes String.utf8EncodeChar_ne_nil
  | cons first bytes =>
    have hfirst : first ≠ 0x2E := by
      intro he
      have hc : c = '.' := dot_mem_utf8EncodeChar.mp (by rw [hbytes, he]; exact List.mem_cons_self)
      exact hdot (congrArg some hc)
    rw [List.cons_append, List.flatMap_cons]
    dsimp only
    rw [decide_eq_true hfirst]

theorem Accepted.name_eq_iff : mountUnitName mountPoint = systemdName mountPoint ↔
    '.' ∉ mountPoint.toList ∧ [] ∉ (relative mountPoint).toList.splitOn '/' := by
  have hdots : '.' ∈ (relative mountPoint).toList ↔ '.' ∈ mountPoint.toList := by
    rw [relative, String.toList_ofList]
    exact mem_dropWhile_slash (by decide)
  have hpath := relative_eq_intercalate_iff h.components_ne_nil
  rw [h.mountUnitName_eq, h.systemdName_eq, ← hdots]
  constructor
  · intro heq
    have hout := ofList_mount_inj heq
    have hsame := asBytes_injective (flatMap_escapeWith_inj hout)
    rw [← hsame, flatMap_escapeWith_eq_iff, ← String.ofList_toList (s := relative mountPoint), dot_mem_asBytes] at hout
    have hchars := congrArg String.toList hsame
    rw [String.toList_ofList] at hchars
    exact ⟨hout, fun hnil => (hpath.mp hchars [] hnil).1 rfl⟩
  · rintro ⟨hdot, hnil⟩
    have hparts : ∀ c ∈ (relative mountPoint).toList.splitOn '/', c ≠ [] ∧ c ≠ ['.'] := by
      intro c hc
      refine ⟨fun he => hnil (he ▸ hc), ?_⟩
      rintro rfl
      exact hdot (mem_of_mem_splitOn hc List.mem_cons_self)
    have hbytes : 0x2E ∉ asBytes (relative mountPoint) := by
      rw [← String.ofList_toList (s := relative mountPoint), dot_mem_asBytes]
      exact hdot
    rw [← hpath.mpr hparts, String.ofList_toList, flatMap_escapeWith_eq_iff.mpr hbytes]

end Accepted

theorem components_eq_of_name_eq {mountPoint mountPoint' : String} (h : Accepted mountPoint)
    (h' : Accepted mountPoint') (heq : mountUnitName mountPoint = mountUnitName mountPoint') :
    components mountPoint = components mountPoint' := by
  rw [h.mountUnitName_eq, h'.mountUnitName_eq] at heq
  have hsame := asBytes_injective (flatMap_escapeWith_inj (ofList_mount_inj heq))
  rw [components_eq, components_eq, hsame]

end Kcore.Lvm
