import Mathlib.Data.List.Infix
import Mathlib.Data.List.TakeWhile

/-!
# Service blocks in a legacy configuration

The first update removes from the configuration of the host the bindings that the host module owns. A binding is found
by its path and ends at the first semicolon outside of brackets, where brackets are counted whether they stand in the
value, in a string or in a comment. `strips_iff` says for which texts these are the characters of the bindings.
-/

namespace Kcore.Update.Legacy

/-! ### The code -/

def needles : List (List Char) :=
  ["systemd.services.kcore-node-agent".toList, "systemd.services.kcore-controller".toList,
    "systemd.services.kcore-dashboard".toList, "systemd.services.kcore-br0-forward-delay".toList,
    "system.activationScripts.kctl-path".toList]

def isAsciiWhitespace (c : Char) : Bool := c ∈ [' ', '\t', '\n', '\x0c', '\r']

/-- The variables of the scan: the brackets that are open, and whether one has been opened. -/
structure Scan where
  depth : Int32
  started : Bool

def Scan.initial : Scan := ⟨0, false⟩

def Scan.step (s : Scan) (c : Char) : Scan :=
  if c ∈ ['{', '[', '('] then ⟨s.depth + 1, true⟩
  else if c ∈ ['}', ']', ')'] ∧ 0 < s.depth then ⟨s.depth - 1, s.started⟩
  else s

def Scan.closed (s : Scan) : Bool := s.started && s.depth = 0

/-- The second loop of `skip_nix_binding`. -/
def scanValue (s : Scan) : List Char → Option Nat
  | [] => none
  | c :: cs => if c = ';' ∧ s.closed then some 1 else (scanValue (s.step c) cs).map (· + 1)

def skipNixBinding (text : List Char) : Option Nat :=
  match text.dropWhile isAsciiWhitespace with
  | [] => none
  | c :: rest =>
    if c ≠ '=' then none
    else (scanValue .initial rest).map ((text.takeWhile isAsciiWhitespace).length + 1 + ·)

def ownedLength (text : List Char) : Option Nat :=
  match needles.find? (·.isPrefixOf text) with
  | none => none
  | some needle => (skipNixBinding (text.drop needle.length)).map (needle.length + ·)

/-- The loop of `strip_owned_service_blocks`, for characters that may carry a mark. The number is that of the characters
to be passed over. -/
def strip {α : Type} (char : α → Char) : Nat → List α → List α
  | _, [] => []
  | skip + 1, _ :: cs => strip char skip cs
  | 0, c :: cs =>
    match ownedLength ((c :: cs).map char) with
    | some n => strip char (n - 1) cs
    | none => c :: strip char 0 cs

def stripOwnedServiceBlocks (src : String) : String := String.ofList (strip id 0 src.toList)

/-! ### What is asked for -/

/-- A text whose characters are marked if they belong to an owned binding, from its path to its semicolon. -/
abbrev Marked := List (Char × Bool)

def Marked.text (m : Marked) : String := String.ofList (m.map Prod.fst)

def Marked.others (m : Marked) : Marked := m.filter (!·.2)

/-- The semicolon behind the value is the first one where all brackets that have been opened are closed, and one has
been opened. -/
def Delimited (value : List Char) : Prop :=
  (value.foldl Scan.step .initial).closed = true ∧
    ∀ start, start ++ [';'] <+: value → (start.foldl Scan.step .initial).closed = false

/-- An owned path, white space, `=` and a value with its semicolon. -/
def Block (text : List Char) : Prop :=
  ∃ path ∈ needles, ∃ blank value, text = path ++ blank ++ '=' :: value ++ [';'] ∧
    (∀ c ∈ blank, isAsciiWhitespace c = true) ∧ Delimited value

/-- Owned bindings are blocks, or together make up blocks, and no block begins at another character. -/
inductive Clean : Marked → Prop
  | nil : Clean []
  | other {c : Char} {rest : Marked} (hblock : ∀ block, Block block → ¬block <+: c :: rest.map Prod.fst)
      (hrest : Clean rest) : Clean ((c, false) :: rest)
  | owned {block rest : Marked} (hblock : Block (block.map Prod.fst)) (hmarks : ∀ c ∈ block, c.2 = true)
      (hrest : Clean rest) : Clean (block ++ rest)

/-! ### The scan -/

theorem scanValue_eq_some {s : Scan} {text : List Char} {n : Nat} :
    scanValue s text = some n ↔ ∃ value rest, text = value ++ ';' :: rest ∧ n = value.length + 1 ∧
      (value.foldl Scan.step s).closed = true ∧
        ∀ start, start ++ [';'] <+: value → (start.foldl Scan.step s).closed = false := by
  induction text generalizing s n with
  | nil => simp [scanValue]
  | cons c cs ih =>
    by_cases hend : c = ';' ∧ s.closed = true
    · rw [scanValue, if_pos hend, Option.some.injEq]
      constructor
      · rintro rfl
        exact ⟨[], cs, by simp [hend.1], rfl, hend.2, by simp⟩
      · rintro ⟨value, rest, htext, rfl, -, hfirst⟩
        cases value with
        | nil => rfl
        | cons d value =>
          obtain ⟨rfl, -⟩ := List.cons.inj htext
          have hopen := hfirst [] (by simp [hend.1])
          exact absurd hend.2 (Bool.eq_false_iff.mp hopen)
    · rw [scanValue, if_neg hend, Option.map_eq_some_iff]
      constructor
      · rintro ⟨m, hscan, rfl⟩
        obtain ⟨value, rest, rfl, rfl, hclosed, hfirst⟩ := ih.mp hscan
        refine ⟨c :: value, rest, rfl, rfl, hclosed, fun start hstart => ?_⟩
        cases start with
        | nil =>
          have hc : ';' = c := (List.cons_prefix_cons.mp hstart).1
          exact Bool.eq_false_iff.mpr fun hclosed => hend ⟨hc.symm, hclosed⟩
        | cons d start =>
          obtain ⟨rfl, hstart'⟩ := List.cons_prefix_cons.mp hstart
          exact hfirst start hstart'
      · rintro ⟨value, rest, htext, rfl, hclosed, hfirst⟩
        cases value with
        | nil => exact absurd ⟨(List.cons.inj htext).1, hclosed⟩ hend
        | cons d value =>
          obtain ⟨rfl, rfl⟩ := List.cons.inj htext
          refine ⟨value.length + 1, ih.mpr ⟨value, rest, rfl, rfl, hclosed, fun start hstart => ?_⟩, rfl⟩
          exact hfirst (c :: start) (List.cons_prefix_cons.mpr ⟨rfl, hstart⟩)

theorem skipNixBinding_eq_some {text : List Char} {n : Nat} :
    skipNixBinding text = some n ↔ ∃ blank value rest, text = blank ++ '=' :: value ++ ';' :: rest ∧
      n = blank.length + value.length + 2 ∧ (∀ c ∈ blank, isAsciiWhitespace c = true) ∧ Delimited value := by
  constructor
  · intro h
    unfold skipNixBinding at h
    split at h
    · nomatch h
    rename_i c rest hdrop
    split at h
    · nomatch h
    rename_i hc
    obtain ⟨m, hscan, rfl⟩ := Option.map_eq_some_iff.mp h
    obtain ⟨value, rest', rfl, rfl, hvalue⟩ := scanValue_eq_some.mp hscan
    refine ⟨text.takeWhile isAsciiWhitespace, value, rest', ?_, by omega, fun c => List.mem_takeWhile_imp, hvalue⟩
    rw [not_not.mp hc] at hdrop
    have htext := List.takeWhile_append_dropWhile (p := isAsciiWhitespace) (l := text)
    rw [hdrop] at htext
    simpa using htext.symm
  · rintro ⟨blank, value, rest, rfl, rfl, hblank, hvalue⟩
    have hscan : scanValue .initial (value ++ ';' :: rest) = some (value.length + 1) :=
      scanValue_eq_some.mpr ⟨value, rest, rfl, rfl, hvalue⟩
    have htake : (blank ++ '=' :: value ++ ';' :: rest).takeWhile isAsciiWhitespace = blank := by
      rw [List.append_assoc, List.takeWhile_append_of_pos hblank]
      simp [isAsciiWhitespace]
    have hdrop : (blank ++ '=' :: value ++ ';' :: rest).dropWhile isAsciiWhitespace =
        '=' :: (value ++ ';' :: rest) := by
      rw [List.append_assoc, List.dropWhile_append_of_pos hblank]
      simp [isAsciiWhitespace]
    simp only [skipNixBinding, hdrop, htake, hscan]
    simp
    omega

theorem needles_prefix_eq : ∀ path ∈ needles, ∀ other ∈ needles, path <+: other → path = other := by decide

theorem find?_needles {path : List Char} (hpath : path ∈ needles) (rest : List Char) :
    needles.find? (·.isPrefixOf (path ++ rest)) = some path := by
  cases hfind : needles.find? (·.isPrefixOf (path ++ rest)) with
  | none =>
    have hnone := List.find?_eq_none.mp hfind path hpath
    exact absurd (List.isPrefixOf_iff_prefix.mpr (List.prefix_append path rest)) hnone
  | some other =>
    have hother := List.mem_of_find?_eq_some hfind
    have hprefix : other <+: path ++ rest := List.isPrefixOf_iff_prefix.mp (by simpa using List.find?_some hfind)
    rcases List.prefix_or_prefix_of_prefix hprefix (List.prefix_append path rest) with h | h
    · rw [needles_prefix_eq other hother path hpath h]
    · rw [needles_prefix_eq path hpath other hother h]

theorem ownedLength_eq_some {text : List Char} {n : Nat} :
    ownedLength text = some n ↔ ∃ block, Block block ∧ block <+: text ∧ n = block.length := by
  constructor
  · intro h
    unfold ownedLength at h
    split at h
    · nomatch h
    rename_i path hfind
    obtain ⟨m, hskip, rfl⟩ := Option.map_eq_some_iff.mp h
    obtain ⟨blank, value, rest, hrest, rfl, hblank, hvalue⟩ := skipNixBinding_eq_some.mp hskip
    have hpath : path <+: text := List.isPrefixOf_iff_prefix.mp (by simpa using List.find?_some hfind)
    refine ⟨path ++ blank ++ '=' :: value ++ [';'],
      ⟨path, List.mem_of_find?_eq_some hfind, blank, value, rfl, hblank, hvalue⟩, ⟨rest, ?_⟩, ?_⟩
    · rw [← List.prefix_iff_eq_append.mp hpath, hrest]
      simp
    · simp
      omega
  · rintro ⟨_, ⟨path, hpath, blank, value, rfl, hblank, hvalue⟩, ⟨rest, rfl⟩, rfl⟩
    have hskip : skipNixBinding (blank ++ '=' :: value ++ ';' :: rest) = some (blank.length + value.length + 2) :=
      skipNixBinding_eq_some.mpr ⟨blank, value, rest, rfl, rfl, hblank, hvalue⟩
    have htext : path ++ blank ++ '=' :: value ++ [';'] ++ rest =
        path ++ (blank ++ '=' :: value ++ ';' :: rest) := by simp
    rw [htext, ownedLength, find?_needles hpath]
    simp only [List.drop_left, hskip]
    simp
    omega

/-! ### The loop -/

section Loop

variable {α : Type} {char : α → Char}

theorem strip_skip (skip : Nat) (text : List α) : strip char skip text = strip char 0 (text.drop skip) := by
  induction skip generalizing text with
  | zero => rfl
  | succ skip ih =>
    cases text with
    | nil => rfl
    | cons c cs => exact ih cs

theorem strip_cons {c : α} {cs : List α} (h : ∀ block, Block block → ¬block <+: (c :: cs).map char) :
    strip char 0 (c :: cs) = c :: strip char 0 cs := by
  cases hlength : ownedLength ((c :: cs).map char) with
  | none => rw [strip, hlength]
  | some n =>
    obtain ⟨block, hblock, hprefix, -⟩ := ownedLength_eq_some.mp hlength
    exact absurd hprefix (h block hblock)

theorem Block.ne_nil {text : List Char} (h : Block text) : text ≠ [] := by
  obtain ⟨path, -, blank, value, rfl, -⟩ := h
  simp

theorem strip_block {block : List α} (hblock : Block (block.map char)) (rest : List α) :
    strip char 0 (block ++ rest) = strip char 0 rest := by
  cases block with
  | nil => exact absurd rfl hblock.ne_nil
  | cons c cs =>
    have hlength : ownedLength ((c :: (cs ++ rest)).map char) = some (cs.length + 1) :=
      ownedLength_eq_some.mpr ⟨_, hblock, ⟨rest.map char, by simp⟩, by simp⟩
    rw [List.cons_append, strip, hlength]
    dsimp only
    rw [Nat.add_sub_cancel, strip_skip, List.drop_left]

theorem strip_map (skip : Nat) (text : List α) : (strip char skip text).map char = strip id skip (text.map char) := by
  induction text generalizing skip with
  | nil => cases skip <;> rfl
  | cons c cs ih =>
    cases skip with
    | succ skip => exact ih skip
    | zero =>
      rw [strip, List.map_cons, strip, List.map_id]
      cases ownedLength (char c :: cs.map char) with
      | none => simp [ih]
      | some n => exact ih (n - 1)

theorem strip_sublist (skip : Nat) (text : List α) : (strip char skip text).Sublist text := by
  induction text generalizing skip with
  | nil => cases skip <;> simp [strip]
  | cons c cs ih =>
    cases skip with
    | succ skip => exact (ih skip).cons c
    | zero =>
      rw [strip]
      cases ownedLength ((c :: cs).map char) with
      | none => exact (ih 0).cons_cons c
      | some n => exact (ih (n - 1)).cons c

end Loop

/-! ### Marked texts -/

theorem others_append (block rest : Marked) : Marked.others (block ++ rest) = block.others ++ rest.others :=
  List.filter_append ..

theorem others_eq_nil {block : Marked} : block.others = [] ↔ ∀ c ∈ block, c.2 = true := by
  simp [Marked.others, List.filter_eq_nil_iff]

theorem others_others (m : Marked) : m.others.others = m.others := List.filter_filter.trans (by simp [Marked.others])

theorem strip_of_clean {m : Marked} (h : Clean m) : strip Prod.fst 0 m = m.others := by
  induction h with
  | nil => rfl
  | @other c rest hblock _ ih =>
    have hcons : strip Prod.fst 0 ((c, false) :: rest) = (c, false) :: strip Prod.fst 0 rest := strip_cons hblock
    rw [hcons, ih]
    rfl
  | owned hblock hmarks _ ih => rw [strip_block hblock, ih, others_append, others_eq_nil.mpr hmarks, List.nil_append]

/-- A block that is passed over holds none of the other characters, as too few of them would be left. -/
theorem others_of_strip {block rest : Marked} (h : strip Prod.fst 0 rest = block.others ++ rest.others) :
    block.others = [] ∧ strip Prod.fst 0 rest = rest.others := by
  have hsublist : (strip Prod.fst 0 rest).Sublist rest := strip_sublist 0 rest
  have hothers := hsublist.filter (!·.2)
  have hlength : (Marked.others (block.others ++ rest.others)).length ≤ rest.others.length := h ▸ hothers.length_le
  rw [others_append, others_others, others_others, List.length_append] at hlength
  have hblock : block.others = [] := List.length_eq_zero_iff.mp (by omega)
  exact ⟨hblock, by rw [h, hblock, List.nil_append]⟩

theorem clean_of_strip {m : Marked} (h : strip Prod.fst 0 m = m.others) : Clean m := by
  induction hn : m.length using Nat.strong_induction_on generalizing m with
  | _ n ih =>
    by_cases hbegins : ∃ block, Block block ∧ block <+: m.map Prod.fst
    · obtain ⟨block, hblock, hprefix⟩ := hbegins
      have hpos := List.length_pos_iff.mpr hblock.ne_nil
      have hle := hprefix.length_le
      rw [List.length_map] at hle
      -- The loop passes over the characters of the block and goes on behind them.
      have htake : (m.take block.length).map Prod.fst = block := by
        rw [List.map_take]
        exact (List.prefix_iff_eq_take.mp hprefix).symm
      rw [← htake] at hblock
      rw [← List.take_append_drop block.length m] at h ⊢
      rw [strip_block hblock, others_append] at h
      obtain ⟨hothers, hrest⟩ := others_of_strip h
      exact .owned hblock (others_eq_nil.mp hothers) (ih _ (by rw [List.length_drop]; omega) hrest rfl)
    · cases m with
      | nil => exact .nil
      | cons c rest =>
        obtain ⟨c, mark⟩ := c
        have hnone : ∀ block, Block block → ¬block <+: c :: rest.map Prod.fst := by
          intro block hblock hprefix
          exact hbegins ⟨block, hblock, hprefix⟩
        have hcons : strip Prod.fst 0 ((c, mark) :: rest) = (c, mark) :: strip Prod.fst 0 rest := strip_cons hnone
        rw [hcons] at h
        cases mark with
        | true =>
          have hmem : (c, true) ∈ Marked.others ((c, true) :: rest) := h ▸ List.mem_cons_self
          exact absurd (List.mem_filter.mp hmem).2 (by simp)
        | false =>
          have hrest : strip Prod.fst 0 rest = Marked.others rest := (List.cons.inj h).2
          exact .other hnone (ih _ (by simp [← hn]) hrest rfl)

/-- Nothing but the characters of owned bindings is removed, and all of them, if and only if the text is clean. -/
theorem strips_iff (m : Marked) :
    (stripOwnedServiceBlocks m.text).toList = (strip Prod.fst 0 m).map Prod.fst ∧
      (strip Prod.fst 0 m = m.others ↔ Clean m) := by
  refine ⟨?_, clean_of_strip, strip_of_clean⟩
  rw [strip_map, stripOwnedServiceBlocks, Marked.text, String.toList_ofList, String.toList_ofList]

example : stripOwnedServiceBlocks "a = 1; systemd.services.kcore-controller = \x7b b = [ ]; \x7d; c = 2;" =
    "a = 1;  c = 2;" := by decide

def mark (parts : List (String × Bool)) : Marked := parts.flatMap fun part => part.1.toList.map (·, part.2)

def withoutBrackets : Marked :=
  mark [("system.activationScripts.kctl-path = null;", true), (" a = [ ]; b = 1;", false)]

def withLet : Marked :=
  mark [("system.activationScripts.kctl-path = let a = [ ]; in \x7b \x7d;", true), (" b = 1;", false)]

/-- With a value without brackets the next binding goes too; with a bracket in a `let` a part of the value stays. -/
theorem brackets_mislead :
    stripOwnedServiceBlocks withoutBrackets.text = " b = 1;" ∧
      withoutBrackets.others = mark [(" a = [ ]; b = 1;", false)] ∧
      stripOwnedServiceBlocks withLet.text = " in \x7b \x7d; b = 1;" ∧ withLet.others = mark [(" b = 1;", false)] := by
  refine ⟨?_, ?_, ?_, ?_⟩ <;> decide

end Kcore.Update.Legacy
