import Mathlib.Data.List.Basic
import Mathlib.Order.Lattice

/-!
# Indented strings

Certificates, keys and manifests of a Kubernetes member are written as indented strings of Nix. In such a string two
quotes and a dollar sign, or three quotes, are an escape; what an escape is depends on the quotes before it. The
evaluation follows the lexer and the indentation rules of Nix, and is compared with the text that was to be written.
-/

namespace Kcore.Nixgen

/-! ### The lexer -/

def unescape (c : Char) : Char := if c = 'n' then '\n' else if c = 'r' then '\r' else if c = 't' then '\t' else c

/-- What the last characters of an indented string are: text, one quote, two quotes, two quotes and a backslash, or a
dollar sign. -/
inductive Behind where
  | text
  | quote
  | quotes
  | escape
  | dollar

/-- A character of the string, and whether it stands for itself: spaces and newlines that do are indentation. -/
abbrev Mark := Char × Bool

inductive Reads where
  | more (marks : List Mark) (behind : Behind)
  | close
  | interpolation

def readChar : Behind → Char → Reads
  | .text, c => if c = '\x27' then .more [] .quote else if c = '$' then .more [] .dollar else .more [(c, true)] .text
  | .quote, c =>
    if c = '\x27' then .more [] .quotes
    else if c = '$' then .more [('\x27', false)] .dollar
    else .more [('\x27', true), (c, true)] .text
  | .quotes, c =>
    if c = '\x27' then .more [('\x27', false), ('\x27', false)] .text
    else if c = '$' then .more [('$', false)] .text
    else if c = '\\' then .more [] .escape
    else .close
  | .escape, c => .more [(unescape c, false)] .text
  | .dollar, c =>
    if c = '{' then .interpolation
    else if c = '\x27' then .more [('$', false)] .quote
    else .more [('$', true), (c, true)] .text

/-- The characters of an indented string up to the quotes that close it, and what follows these. There is no result if
the string has an interpolation. -/
def readBody : Behind → List Char → Option (List Mark × List Char)
  | .quotes, [] => some ([], [])
  | _, [] => none
  | behind, c :: s =>
    match readChar behind c with
    | .more marks behind' => (readBody behind' s).map fun r => (marks ++ r.1, r.2)
    | .close => some ([], c :: s)
    | .interpolation => none

/-! ### Indentation -/

/-- The smallest indentation of a line that is not blank. `start` says that only spaces have been seen of the line. -/
def minIndent (start : Bool) (indent least : Nat) : List Mark → Nat
  | [] => least
  | (c, plain) :: s =>
    if plain then
      if c = '\n' then minIndent true 0 least s
      else if start then
        if c = ' ' then minIndent true (indent + 1) least s else minIndent false indent (min indent least) s
      else minIndent false indent least s
    else if start then minIndent false indent (min indent least) s
    else minIndent false indent least s

def dropIndent (least : Nat) (start : Bool) (dropped : Nat) : List Mark → List Mark
  | [] => []
  | (c, plain) :: s =>
    if c = '\n' then (c, plain) :: dropIndent least true 0 s
    else if start && c = ' ' then
      if dropped ≥ least then (c, plain) :: dropIndent least true (dropped + 1) s
      else dropIndent least true (dropped + 1) s
    else (c, plain) :: dropIndent least false 0 s

def dropBlankEnd (marks : List Mark) : List Mark :=
  let back := marks.reverse.dropWhile (· = (' ', true))
  if back.head? = some ('\n', true) then back.reverse else marks

def stripIndentation (marks : List Mark) : List Mark := dropIndent (minIndent true 0 1000000 marks) true 0 marks

def skipFirstLine (s : List Char) : List Char :=
  match s.dropWhile (· = ' ') with
  | '\n' :: rest => rest
  | _ => s

def readIndented (s : List Char) : Option (List Char × List Char) :=
  if s.take 2 = ['\x27', '\x27'] then
    (readBody .text (skipFirstLine (s.drop 2))).bind fun r =>
      let value := (dropBlankEnd (stripIndentation r.1)).map Prod.fst
      if '\x00' ∈ value then none else some (value, r.2)
  else none

/-! ### `nix_multiline` -/

/-- `replace("''", "'''")`. -/
def tripleQuotes : List Char → List Char
  | '\x27' :: '\x27' :: s => '\x27' :: '\x27' :: '\x27' :: tripleQuotes s
  | c :: s => c :: tripleQuotes s
  | [] => []

/-- `replace("${", "''${")`. -/
def guardDollars : List Char → List Char
  | '$' :: '{' :: s => '\x27' :: '\x27' :: '$' :: '{' :: guardDollars s
  | c :: s => c :: guardDollars s
  | [] => []

def endLine (s : List Char) : List Char := if s.getLast? = some '\n' then s else s ++ ['\n']

def nixMultiline (value : String) : String :=
  String.ofList ('\x27' :: '\x27' :: (endLine (guardDollars (tripleQuotes value.toList)) ++ ['\x27', '\x27']))

example : nixMultiline "a''b$\x7bc\x7d" = "''a'''b''$\x7bc\x7d\n''" := by decide

/-! ### What is read back -/

def escapeIndented : List Char → List Char
  | '\x27' :: '\x27' :: s => '\x27' :: '\x27' :: '\x27' :: escapeIndented s
  | '$' :: '{' :: s => '\x27' :: '\x27' :: '$' :: '{' :: escapeIndented s
  | c :: s => c :: escapeIndented s
  | [] => []

variable {c : Char}

theorem tripleQuotes_of_ne (h : c ≠ '\x27') (s : List Char) : tripleQuotes (c :: s) = c :: tripleQuotes s := by
  rw [tripleQuotes]
  intro t hc _
  exact h hc

theorem guardDollars_of_ne (h : c ≠ '$') (s : List Char) : guardDollars (c :: s) = c :: guardDollars s := by
  rw [guardDollars]
  intro t hc _
  exact h hc

theorem head_tripleQuotes (s : List Char) : (tripleQuotes s).head? = s.head? := by
  fun_cases tripleQuotes s <;> rfl

theorem guardDollars_dollar {s : List Char} (h : s.head? ≠ some '{') :
    guardDollars ('$' :: s) = '$' :: guardDollars s := by
  rw [guardDollars]
  intro t _ hs
  exact h (by rw [hs]; rfl)

/-- The second replacement does not meet what the first one has written. -/
theorem guardDollars_tripleQuotes (s : List Char) : guardDollars (tripleQuotes s) = escapeIndented s := by
  fun_induction escapeIndented s with
  | case1 s ih =>
    rw [tripleQuotes, guardDollars_of_ne (by decide), guardDollars_of_ne (by decide), guardDollars_of_ne (by decide),
      ih]
  | case2 s ih =>
    rw [tripleQuotes_of_ne (by decide), tripleQuotes_of_ne (by decide), guardDollars, ih]
  | case3 c s hquotes hdollar ih =>
    have htriple : tripleQuotes (c :: s) = c :: tripleQuotes s := by
      rw [tripleQuotes]
      exact hquotes
    rw [htriple]
    by_cases hc : c = '$'
    · subst hc
      have hhead : (tripleQuotes s).head? ≠ some '{' := by
        rw [head_tripleQuotes]
        intro hs
        obtain ⟨t, rfl⟩ := List.head?_eq_some_iff.1 hs
        exact hdollar t rfl rfl
      rw [guardDollars_dollar hhead, ih]
    · rw [guardDollars_of_ne hc, ih]
  | case4 => rfl

def breaksOut : List Char → Bool
  | '\x27' :: '\x27' :: s => breaksOut s
  | '\x27' :: '$' :: '{' :: _ => true
  | _ :: s => breaksOut s
  | [] => false

def Marks (s : List Char) (marks : List Mark) : Prop :=
  marks.map Prod.fst = s ∧ ∀ m ∈ marks, m.1 = ' ' ∨ m.1 = '\n' → m.2 = true

theorem Marks.append {s s' : List Char} {marks marks' : List Mark} (h : Marks s marks) (h' : Marks s' marks') :
    Marks (s ++ s') (marks ++ marks') := by
  refine ⟨by rw [List.map_append, h.1, h'.1], fun m hm => ?_⟩
  rcases List.mem_append.1 hm with hm | hm
  · exact h.2 m hm
  · exact h'.2 m hm

section Reading

variable {c : Char} (s : List Char)

theorem escapeIndented_of_ne (hquote : c ≠ '\x27') (hdollar : c ≠ '$') :
    escapeIndented (c :: s) = c :: escapeIndented s := by
  rw [escapeIndented]
  · exact fun t hc _ => hquote hc
  · exact fun t hc _ => hdollar hc

theorem escapeIndented_quote (hc : c ≠ '\x27') :
    escapeIndented ('\x27' :: c :: s) = '\x27' :: escapeIndented (c :: s) := by
  rw [escapeIndented]
  · exact fun t _ ht => hc (List.cons.inj ht).1
  · exact fun t h _ => absurd h (by decide)

theorem escapeIndented_dollar (hc : c ≠ '{') : escapeIndented ('$' :: c :: s) = '$' :: escapeIndented (c :: s) := by
  rw [escapeIndented]
  · exact fun t h _ => absurd h (by decide)
  · exact fun t _ ht => hc (List.cons.inj ht).1

theorem breaksOut_of_ne (hc : c ≠ '\x27') : breaksOut (c :: s) = breaksOut s := by
  rw [breaksOut]
  · exact fun t h _ => hc h
  · exact fun t h _ => hc h

theorem readBody_of_ne (hquote : c ≠ '\x27') (hdollar : c ≠ '$') :
    readBody .text (c :: s) = (readBody .text s).map fun r => ((c, true) :: r.1, r.2) := by
  have hread : readChar .text c = .more [(c, true)] .text := by
    simp [readChar, hquote, hdollar]
  simp [readBody, hread]

theorem readBody_quote (hquote : c ≠ '\x27') (hdollar : c ≠ '$') :
    readBody .text ('\x27' :: c :: s) =
      (readBody .text s).map fun r => ([('\x27', true), (c, true)] ++ r.1, r.2) := by
  have hread : readChar .quote c = .more [('\x27', true), (c, true)] .text := by
    simp [readChar, hquote, hdollar]
  change (readBody .quote (c :: s)).map _ = _
  simp [readBody, hread, Function.comp_def]

theorem readBody_quote_dollar :
    readBody .text ('\x27' :: '$' :: s) =
      (readBody .text ('$' :: s)).map fun r => ([('\x27', false)] ++ r.1, r.2) := by
  change (Option.map _ (readBody .dollar s)).map _ = (Option.map _ (readBody .dollar s)).map _
  simp only [Option.map_map]
  rfl

theorem readBody_dollar (hquote : c ≠ '\x27') (hbrace : c ≠ '{') :
    readBody .text ('$' :: c :: s) = (readBody .text s).map fun r => ([('$', true), (c, true)] ++ r.1, r.2) := by
  have hread : readChar .dollar c = .more [('$', true), (c, true)] .text := by
    simp [readChar, hquote, hbrace]
  change (readBody .dollar (c :: s)).map _ = _
  simp [readBody, hread, Function.comp_def]

theorem readBody_dollar_quote :
    readBody .text ('$' :: '\x27' :: s) =
      (readBody .text ('\x27' :: s)).map fun r => ([('$', false)] ++ r.1, r.2) := by
  change (Option.map _ (readBody .quote s)).map _ = (Option.map _ (readBody .quote s)).map _
  simp only [Option.map_map]
  rfl

theorem readBody_quotes :
    readBody .text ('\x27' :: '\x27' :: '\x27' :: s) =
      (readBody .text s).map fun r => ([('\x27', false), ('\x27', false)] ++ r.1, r.2) := by
  change ((Option.map _ (readBody .text s)).map _).map _ = _
  simp only [Option.map_map]
  rfl

theorem readBody_guarded :
    readBody .text ('\x27' :: '\x27' :: '$' :: '{' :: s) =
      (readBody .text s).map fun r => ([('$', false), ('{', true)] ++ r.1, r.2) := by
  change (((Option.map _ (readBody .text s)).map _).map _).map _ = _
  simp only [Option.map_map]
  rfl

end Reading

/-- An escaped text begins with a quote or with the first character of the text. -/
theorem escapeIndented_cases (d : Char) (s : List Char) :
    (∃ t, escapeIndented (d :: s) = '\x27' :: t) ∨
      (d ≠ '\x27' ∧ escapeIndented (d :: s) = d :: escapeIndented s) := by
  by_cases hd : d = '\x27'
  · subst hd
    left
    rcases s with _ | ⟨e, s⟩
    · exact ⟨[], rfl⟩
    · by_cases he : e = '\x27'
      · subst he
        exact ⟨_, rfl⟩
      · exact ⟨_, escapeIndented_quote s he⟩
  · by_cases hdollar : d = '$'
    · subst hdollar
      rcases s with _ | ⟨e, s⟩
      · exact .inr ⟨hd, rfl⟩
      · by_cases he : e = '{'
        · subst he
          exact .inl ⟨_, rfl⟩
        · exact .inr ⟨hd, escapeIndented_dollar s he⟩
    · exact .inr ⟨hd, escapeIndented_of_ne s hd hdollar⟩

variable {s : List Char} {marks : List Mark}

theorem breaksOut_quote {d : Char} (hd : d ≠ '\x27') (hbrace : d = '$' → s.head? ≠ some '{') :
    breaksOut ('\x27' :: d :: s) = breaksOut (d :: s) := by
  rw [breaksOut]
  · exact fun t _ ht => hd (List.cons.inj ht).1
  · intro t _ ht
    obtain ⟨rfl, rfl⟩ := List.cons.inj ht
    exact hbrace rfl rfl

/-- The lexer takes a few characters of the escaped text together and goes on with the rest. -/
structure Takes (s t : List Char) : Prop where
  ahead : ∃ f m, s = f ++ t ∧ f ≠ [] ∧ Marks f m ∧ ∀ tail, readBody .text (escapeIndented s ++ tail) =
    (readBody .text (escapeIndented t ++ tail)).map fun r => (m ++ r.1, r.2)
  breaks : breaksOut s = breaksOut t

theorem takes_of_quote {d : Char} (hbrace : d = '$' → s.head? ≠ some '{') (hs : d = '$' → s ≠ []) :
    ∃ t, Takes ('\x27' :: d :: s) t := by
  by_cases hd : d = '\x27'
  · subst hd
    exact ⟨s, ⟨['\x27', '\x27'], [('\x27', false), ('\x27', false)], rfl, by simp, ⟨rfl, by simp⟩,
      fun tail => readBody_quotes _⟩, rfl⟩
  by_cases hdollar : d = '$'
  · subst hdollar
    obtain ⟨e, s, rfl⟩ := List.exists_cons_of_ne_nil (hs rfl)
    have he : e ≠ '{' := by simpa using hbrace rfl
    refine ⟨'$' :: e :: s, ⟨['\x27'], [('\x27', false)], rfl, by simp, ⟨rfl, by simp⟩, fun tail => ?_⟩,
      breaksOut_quote hd hbrace⟩
    rw [escapeIndented_quote _ hd, escapeIndented_dollar s he]
    exact readBody_quote_dollar _
  · refine ⟨s, ⟨['\x27', d], [('\x27', true), (d, true)], rfl, by simp, ⟨rfl, by simp⟩, fun tail => ?_⟩, ?_⟩
    · rw [escapeIndented_quote s hd, escapeIndented_of_ne s hd hdollar]
      exact readBody_quote _ hd hdollar
    · rw [breaksOut_quote hd hbrace, breaksOut_of_ne s hd]

theorem takes_of_dollar (d : Char) (s : List Char) : ∃ t, Takes ('$' :: d :: s) t := by
  have hbreaks : breaksOut ('$' :: d :: s) = breaksOut (d :: s) := breaksOut_of_ne _ (by decide)
  by_cases hbrace : d = '{'
  · subst hbrace
    refine ⟨s, ⟨['$', '{'], [('$', false), ('{', true)], rfl, by simp, ⟨rfl, by simp⟩,
      fun tail => readBody_guarded _⟩, ?_⟩
    rw [hbreaks, breaksOut_of_ne s (by decide)]
  rcases escapeIndented_cases d s with ⟨t, ht⟩ | ⟨hd, ht⟩
  · refine ⟨d :: s, ⟨['$'], [('$', false)], rfl, by simp, ⟨rfl, by simp⟩, fun tail => ?_⟩, hbreaks⟩
    rw [escapeIndented_dollar s hbrace, ht]
    exact readBody_dollar_quote _
  · refine ⟨s, ⟨['$', d], [('$', true), (d, true)], rfl, by simp, ⟨rfl, by simp⟩, fun tail => ?_⟩, ?_⟩
    · rw [escapeIndented_dollar s hbrace, ht]
      exact readBody_dollar _ hd hbrace
    · rw [hbreaks, breaksOut_of_ne s hd]

theorem exists_takes {c : Char} (hone : s = [] → c ≠ '\x27' ∧ c ≠ '$') (htwo : c = '\x27' → s ≠ ['$'])
    (hbrace : ∀ t, c :: s ≠ '\x27' :: '$' :: '{' :: t) : ∃ t, Takes (c :: s) t := by
  by_cases hquote : c = '\x27'
  · subst hquote
    obtain ⟨d, s, rfl⟩ := List.exists_cons_of_ne_nil (fun h => (hone h).1 rfl)
    refine takes_of_quote (fun hd hs => ?_) fun hd hs => ?_
    · obtain ⟨t, rfl⟩ := List.head?_eq_some_iff.1 hs
      exact hbrace t (by rw [hd])
    · exact htwo rfl (by rw [hd, hs])
  by_cases hdollar : c = '$'
  · subst hdollar
    obtain ⟨d, s, rfl⟩ := List.exists_cons_of_ne_nil (fun h => (hone h).2 rfl)
    exact takes_of_dollar d s
  · refine ⟨s, ⟨[c], [(c, true)], rfl, by simp, ⟨rfl, by simp⟩, fun tail => ?_⟩, breaksOut_of_ne s hquote⟩
    rw [escapeIndented_of_ne s hquote hdollar]
    exact readBody_of_ne _ hquote hdollar

def closing (rest : List Char) : List Char := '\x27' :: '\x27' :: ';' :: rest

def EndsLine (s : List Char) : Prop := s = [] ∨ s.getLast? = some '\n'

theorem EndsLine.of_append {f t : List Char} (h : EndsLine (f ++ t)) : EndsLine t := by
  rcases t with _ | ⟨c, t⟩
  · exact .inl rfl
  · rcases h with h | h
    · simp at h
    · right
      rwa [List.getLast?_append_of_ne_nil _ (by simp)] at h

/-- Where no brace breaks out, what is read of the escaped text is the text. The induction is on the length, since the
lexer takes a quote or a dollar sign together with the character behind it. -/
theorem readBody_escapeIndented (hend : EndsLine s) (h : breaksOut s = false) (rest : List Char) :
    ∃ marks, Marks s marks ∧ readBody .text (escapeIndented s ++ closing rest) = some (marks, ';' :: rest) := by
  induction hn : s.length using Nat.strongRecOn generalizing s with
  | ind n ih =>
    subst hn
    rcases s with _ | ⟨c, s⟩
    · exact ⟨[], ⟨rfl, by simp⟩, rfl⟩
    have hlast : ∀ f d, c :: s = f ++ [d] → d = '\n' := by
      intro f d hs
      rw [hs] at hend
      rcases hend with hend | hend
      · simp at hend
      · simpa using hend
    obtain ⟨t, ⟨f, m, hs, hf, hm, hread⟩, hbreaks⟩ := exists_takes (c := c) (s := s)
      (fun hs => by have := hlast [] c (by rw [hs]; rfl); subst this; decide)
      (fun _ hs => absurd (hlast [c] '$' (by rw [hs]; rfl)) (by decide))
      (fun t hs => by rw [hs] at h; cases h)
    rw [hs] at hend
    obtain ⟨marks, hmarks, hrest⟩ := ih t.length
      (by rw [hs, List.length_append]; exact Nat.lt_add_of_pos_left (List.length_pos_of_ne_nil hf))
      hend.of_append (hbreaks.symm.trans h) rfl
    refine ⟨m ++ marks, hs ▸ hm.append hmarks, ?_⟩
    rw [hread, hrest]
    rfl

theorem readBody_breaksOut (h : breaksOut s = true) (tail : List Char) :
    readBody .text (escapeIndented s ++ tail) = none := by
  induction hn : s.length using Nat.strongRecOn generalizing s with
  | ind n ih =>
    subst hn
    rcases s with _ | ⟨c, s⟩
    · cases h
    by_cases hbrace : ∃ t, c :: s = '\x27' :: '$' :: '{' :: t
    · obtain ⟨t, ht⟩ := hbrace
      rw [ht]
      rfl
    obtain ⟨t, ⟨f, m, hs, hf, hm, hread⟩, hbreaks⟩ := exists_takes (c := c) (s := s)
      (fun hs => by
        subst hs
        refine ⟨?_, ?_⟩ <;> (rintro rfl; cases h))
      (fun hc hs => by
        subst hc hs
        cases h)
      (fun t ht => hbrace ⟨t, ht⟩)
    rw [hread, ih t.length
      (by rw [hs, List.length_append]; exact Nat.lt_add_of_pos_left (List.length_pos_of_ne_nil hf))
      (hbreaks.symm.trans h) rfl]
    rfl

/-! ### The indentation of what is read -/

def plain (s : List Char) : List Mark := s.map fun c => (c, true)

def dedent (s : List Char) : List Char := (stripIndentation (plain s)).map Prod.fst

theorem minIndent_marks (h : ∀ m ∈ marks, m.1 = ' ' ∨ m.1 = '\n' → m.2 = true) (start : Bool) (indent least : Nat) :
    minIndent start indent least marks = minIndent start indent least (plain (marks.map Prod.fst)) := by
  induction marks generalizing start indent least with
  | nil => rfl
  | cons m marks ih =>
    obtain ⟨c, flag⟩ := m
    have ih := ih fun m hm => h m (List.mem_cons_of_mem _ hm)
    simp only [plain, List.map_cons, minIndent, if_true] at ih ⊢
    cases flag with
    | true => simp only [if_true, ih]
    | false =>
      -- An escaped character is no blank, so it ends the indentation in either case.
      have hc := h (c, false) List.mem_cons_self
      have hspace : c ≠ ' ' := fun hs => by simpa using hc (.inl hs)
      have hline : c ≠ '\n' := fun hs => by simpa using hc (.inr hs)
      simp only [hspace, hline, if_false, ih, Bool.false_eq_true]

theorem dropIndent_fst (least : Nat) (start : Bool) (dropped : Nat) (marks : List Mark) :
    (dropIndent least start dropped marks).map Prod.fst =
      (dropIndent least start dropped (plain (marks.map Prod.fst))).map Prod.fst := by
  induction marks generalizing start dropped with
  | nil => rfl
  | cons m marks ih =>
    simp only [plain, List.map_cons, dropIndent] at ih ⊢
    split_ifs <;> simp [ih]

theorem Marks.dedent (h : Marks s marks) :
    (stripIndentation marks).map Prod.fst = dedent s := by
  unfold stripIndentation Nixgen.dedent
  rw [dropIndent_fst, minIndent_marks h.2, h.1]
  rfl

theorem getLast_dropIndent {flag : Bool} (h : marks.getLast? = some ('\n', flag)) (least : Nat) (start : Bool)
    (dropped : Nat) : (dropIndent least start dropped marks).getLast? = some ('\n', flag) := by
  induction marks generalizing start dropped with
  | nil => cases h
  | cons m marks ih =>
    rcases marks with _ | ⟨m', marks⟩
    · cases h
      rfl
    · have hlast : (m' :: marks).getLast? = some ('\n', flag) := by simpa using h
      have ih := ih hlast
      unfold dropIndent
      split_ifs <;> simp [List.getLast?_cons, ih]

theorem dropBlankEnd_of_getLast (h : marks.getLast? = some ('\n', true)) :
    dropBlankEnd marks = marks := by
  obtain ⟨front, rfl⟩ := List.getLast?_eq_some_iff.1 h
  simp [dropBlankEnd]

theorem Marks.value (h : Marks s marks) (hend : EndsLine s) :
    (dropBlankEnd (stripIndentation marks)).map Prod.fst = Nixgen.dedent s := by
  rw [← h.dedent]
  rcases hend with rfl | hend
  · have hnil : marks = [] := List.map_eq_nil_iff.1 h.1
    subst hnil
    rfl
  · have hlast : marks.getLast? = some ('\n', true) := by
      rw [← h.1, List.getLast?_map, Option.map_eq_some_iff] at hend
      obtain ⟨⟨c, flag⟩, hm, hc⟩ := hend
      have hflag := h.2 _ (List.mem_of_getLast? hm) (.inr hc)
      simp only at hc hflag
      rw [hm, hc, hflag]
    have hstripped : (stripIndentation marks).getLast? = some ('\n', true) := getLast_dropIndent hlast _ _ _
    rw [dropBlankEnd_of_getLast hstripped]

/-! ### The first line -/

theorem firstLine_cases (hend : EndsLine s) (hs : s ≠ []) :
    (∃ k t, s = List.replicate k ' ' ++ '\n' :: t) ∨
      ∃ k c t, s = List.replicate k ' ' ++ c :: t ∧ c ≠ ' ' ∧ c ≠ '\n' := by
  induction s with
  | nil => exact absurd rfl hs
  | cons c s ih =>
    by_cases hline : c = '\n'
    · exact .inl ⟨0, s, by rw [hline]; rfl⟩
    by_cases hspace : c = ' '
    · subst hspace
      have hne : s ≠ [] := by
        rintro rfl
        rcases hend with hend | hend <;> simp at hend
      rcases ih (EndsLine.of_append (f := [' ']) hend) hne with ⟨k, t, ht⟩ | ⟨k, d, t, ht, hd⟩
      · exact .inl ⟨k + 1, t, by rw [ht, List.replicate_succ, List.cons_append]⟩
      · exact .inr ⟨k + 1, d, t, by rw [ht, List.replicate_succ, List.cons_append], hd⟩
    · exact .inr ⟨0, c, s, rfl, hspace, hline⟩

theorem escapeIndented_spaces (k : Nat) (s : List Char) :
    escapeIndented (List.replicate k ' ' ++ s) = List.replicate k ' ' ++ escapeIndented s := by
  induction k with
  | zero => rfl
  | succ k ih =>
    rw [List.replicate_succ, List.cons_append, escapeIndented_of_ne _ (by decide) (by decide), ih, List.cons_append]

theorem dropWhile_spaces (k : Nat) (hc : c ≠ ' ') (s : List Char) :
    (List.replicate k ' ' ++ c :: s).dropWhile (· = ' ') = c :: s := by
  induction k with
  | zero => simp [hc]
  | succ k ih => simpa [List.replicate_succ] using ih

theorem skipFirstLine_blank (k : Nat) (t : List Char) : skipFirstLine (List.replicate k ' ' ++ '\n' :: t) = t := by
  unfold skipFirstLine
  rw [dropWhile_spaces k (by decide)]
  rfl

theorem skipFirstLine_of_ne (k : Nat) (hspace : c ≠ ' ') (hline : c ≠ '\n') (t : List Char) :
    skipFirstLine (List.replicate k ' ' ++ c :: t) = List.replicate k ' ' ++ c :: t := by
  unfold skipFirstLine
  rw [dropWhile_spaces k hspace]
  split
  · rename_i hc
    exact absurd (List.cons.inj hc).1 hline
  · rfl

theorem skipFirstLine_escapeIndented (hend : EndsLine s) (hs : s ≠ []) (tail : List Char) :
    skipFirstLine (escapeIndented s ++ tail) = escapeIndented (skipFirstLine s) ++ tail := by
  rcases firstLine_cases hend hs with ⟨k, t, rfl⟩ | ⟨k, c, t, rfl, hspace, hline⟩
  · rw [escapeIndented_spaces, escapeIndented_of_ne _ (by decide) (by decide), List.append_assoc, List.cons_append,
      skipFirstLine_blank, skipFirstLine_blank]
  · rw [skipFirstLine_of_ne k hspace hline, escapeIndented_spaces, List.append_assoc]
    rcases escapeIndented_cases c t with ⟨t', ht⟩ | ⟨-, ht⟩
    · rw [ht, List.cons_append, skipFirstLine_of_ne k (by decide) (by decide)]
    · rw [ht, List.cons_append, skipFirstLine_of_ne k hspace hline]

theorem breaksOut_skipFirstLine (hend : EndsLine s) (hs : s ≠ []) :
    breaksOut (skipFirstLine s) = breaksOut s := by
  rcases firstLine_cases hend hs with ⟨k, t, rfl⟩ | ⟨k, c, t, rfl, hspace, hline⟩
  · rw [skipFirstLine_blank]
    induction k with
    | zero => exact (breaksOut_of_ne t (by decide)).symm
    | succ k ih =>
      rw [List.replicate_succ, List.cons_append, breaksOut_of_ne _ (by decide)]
      exact ih (EndsLine.of_append (f := [' ']) hend) (by simp)
  · rw [skipFirstLine_of_ne k hspace hline]

theorem endsLine_skipFirstLine (hend : EndsLine s) (hs : s ≠ []) : EndsLine (skipFirstLine s) := by
  rcases firstLine_cases hend hs with ⟨k, t, rfl⟩ | ⟨k, c, t, rfl, hspace, hline⟩
  · rw [skipFirstLine_blank]
    rw [List.append_cons] at hend
    exact hend.of_append
  · rwa [skipFirstLine_of_ne k hspace hline]

theorem minIndent_blank (k : Nat) (t : List Char) (indent least : Nat) :
    minIndent true indent least (plain (List.replicate k ' ' ++ '\n' :: t)) = minIndent true 0 least (plain t) := by
  induction k generalizing indent with
  | zero => simp [plain, minIndent]
  | succ k ih => simpa [plain, minIndent, List.replicate_succ] using ih (indent + 1)

theorem dropIndent_blank (least k : Nat) (t : List Char) (dropped : Nat) :
    dropIndent least true dropped (plain (List.replicate k ' ' ++ '\n' :: t)) =
      List.replicate (k - (least - dropped)) (' ', true) ++ ('\n', true) :: dropIndent least true 0 (plain t) := by
  induction k generalizing dropped with
  | zero => simp [plain, dropIndent]
  | succ k ih =>
    have ih := ih (dropped + 1)
    have hline : (' ' : Char) ≠ '\n' := by decide
    simp only [plain, List.replicate_succ, List.cons_append, List.map_cons, dropIndent, hline, if_false, decide_true,
      Bool.and_self, if_true] at ih ⊢
    by_cases hle : dropped ≥ least
    · have hcount : k + 1 - (least - dropped) = k - (least - (dropped + 1)) + 1 := by omega
      rw [if_pos hle, ih, hcount, List.replicate_succ, List.cons_append]
    · have hcount : k + 1 - (least - dropped) = k - (least - (dropped + 1)) := by omega
      rw [if_neg hle, ih, hcount]

theorem dedent_blank (k : Nat) (t : List Char) :
    dedent (List.replicate k ' ' ++ '\n' :: t) =
      List.replicate (k - minIndent true 0 1000000 (plain t)) ' ' ++ '\n' :: dedent t := by
  unfold dedent stripIndentation
  rw [minIndent_blank, dropIndent_blank]
  simp

theorem getLast_dedent (h : s.getLast? = some '\n') : (dedent s).getLast? = some '\n' := by
  have hplain : (plain s).getLast? = some ('\n', true) := by simp [plain, h]
  have hlast : (stripIndentation (plain s)).getLast? = some ('\n', true) := getLast_dropIndent hplain _ _ _
  simp [dedent, hlast]

/-! ### A lost first line -/

def chomp (s : List Char) : List Char := if s.getLast? = some '\n' then s.dropLast else s

@[simp] theorem chomp_newline (s : List Char) : chomp (s ++ ['\n']) = s := by
  unfold chomp
  rw [if_pos (by simp), List.dropLast_concat]

/-- The first line is blank and something follows it. (A line of more than a million spaces has more of them than Nix
takes for indentation.) -/
def LosesFirstLine (s : List Char) : Prop :=
  ∃ k t, s = List.replicate k ' ' ++ '\n' :: t ∧ (t ≠ [] ∨ 1000000 < k)

theorem chomp_dedent_skipFirstLine (hend : EndsLine s) (hs : s ≠ []) :
    chomp (dedent (skipFirstLine s)) = chomp (dedent s) ↔ ¬ LosesFirstLine s := by
  rcases firstLine_cases hend hs with ⟨k, t, rfl⟩ | ⟨k, c, t, rfl, hspace, hline⟩
  · have hloses : LosesFirstLine (List.replicate k ' ' ++ '\n' :: t) ↔ t ≠ [] ∨ 1000000 < k := by
      constructor
      · rintro ⟨k', t', heq, h⟩
        have ht : t = t' := by rw [← skipFirstLine_blank k t, heq, skipFirstLine_blank]
        have hk : k = k' := by
          have hlength := congrArg List.length heq
          simp only [List.length_append, List.length_replicate, List.length_cons, ht] at hlength
          omega
        rwa [ht, hk]
      · exact fun h => ⟨k, t, rfl, h⟩
    rw [hloses, skipFirstLine_blank, dedent_blank]
    have hend' : EndsLine t := by
      rw [List.append_cons] at hend
      exact hend.of_append
    rcases hend' with rfl | hlast
    · -- Nothing follows: what is left of the line are the spaces beyond the most that is dropped.
      have hmin : minIndent true 0 1000000 (plain []) = 1000000 := rfl
      have hdedent : dedent [] = [] := rfl
      have hnil : chomp [] = [] := rfl
      rw [hmin, hdedent, hnil, chomp_newline, eq_comm, List.replicate_eq_nil_iff]
      constructor
      · rintro hk (hne | hlt)
        · exact hne rfl
        · omega
      · intro h
        have hle : ¬ 1000000 < k := fun hlt => h (.inr hlt)
        omega
    · have hne : t ≠ [] := by
        rintro rfl
        cases hlast
      obtain ⟨front, hfront⟩ := List.getLast?_eq_some_iff.1 (getLast_dedent hlast)
      rw [hfront, chomp_newline, ← List.cons_append, ← List.append_assoc, chomp_newline]
      constructor
      · intro h
        have hlength := congrArg List.length h
        simp only [List.length_append, List.length_cons] at hlength
        omega
      · exact fun h => absurd (.inl hne) h
  · rw [skipFirstLine_of_ne k hspace hline]
    refine ⟨fun _ => ?_, fun _ => rfl⟩
    rintro ⟨k', t', heq, -⟩
    have hskip := skipFirstLine_of_ne k hspace hline t
    rw [heq, skipFirstLine_blank] at hskip
    have hlength := congrArg List.length hskip
    simp at hlength
    omega

/-! ### The end of the text -/

theorem getLast_escapeIndented (s : List Char) : (escapeIndented s).getLast? = s.getLast? := by
  fun_induction escapeIndented s with
  | case1 _ ih | case2 _ ih | case3 _ _ _ _ ih => simp [List.getLast?_cons, ih]
  | case4 => rfl

/-- A newline behind a text is not what makes a pair of its last character. -/
theorem append_newline_ne {d : Char} (hd : d ≠ '\n') (h : ∀ t, s ≠ d :: t) (t : List Char) :
    s ++ ['\n'] ≠ d :: t := by
  intro hs
  rcases s with _ | ⟨e, s⟩
  · exact hd (List.cons.inj hs).1.symm
  · exact h s (by rw [(List.cons.inj hs).1])

theorem escapeIndented_newline (s : List Char) : escapeIndented (s ++ ['\n']) = escapeIndented s ++ ['\n'] := by
  fun_induction escapeIndented s with
  | case1 s ih | case2 s ih => simp [escapeIndented, ih]
  | case3 c s hquotes hdollar ih =>
    rw [List.cons_append, escapeIndented, ih, List.cons_append]
    · rintro t rfl hs
      exact append_newline_ne (by decide) (fun t => hquotes t rfl) t hs
    · rintro t rfl hs
      exact append_newline_ne (by decide) (fun t => hdollar t rfl) t hs
  | case4 => rfl

theorem breaksOut_newline (s : List Char) : breaksOut (s ++ ['\n']) = breaksOut s := by
  fun_induction breaksOut s with
  | case1 s ih => simpa [breaksOut] using ih
  | case2 s => rfl
  | case3 c s hquotes hbrace ih =>
    rw [List.cons_append, breaksOut, ih]
    · rintro t rfl hs
      exact append_newline_ne (by decide) (fun t => hquotes t rfl) t hs
    · rintro t rfl hs
      rcases s with _ | ⟨d, s⟩
      · cases hs
      · obtain ⟨rfl, htail⟩ := List.cons.inj hs
        have hbrace : ∀ t, s ≠ '{' :: t := fun t h => hbrace t rfl (by rw [h])
        exact append_newline_ne (by decide) hbrace t htail
  | case4 => rfl

theorem endLine_escapeIndented (s : List Char) : endLine (escapeIndented s) = escapeIndented (endLine s) := by
  unfold endLine
  rw [getLast_escapeIndented]
  split_ifs
  · rfl
  · rw [escapeIndented_newline]

theorem breaksOut_endLine (s : List Char) : breaksOut (endLine s) = breaksOut s := by
  unfold endLine
  split_ifs
  · rfl
  · exact breaksOut_newline s

theorem endsLine_endLine (s : List Char) : EndsLine (endLine s) := by
  unfold endLine
  split_ifs with h
  · exact .inr h
  · exact .inr (by simp)

theorem endLine_ne_nil (s : List Char) : endLine s ≠ [] := by
  unfold endLine
  split_ifs with h
  · rintro rfl
    cases h
  · simp

/-! ### Characters that are not blank -/

theorem mem_dedent (hspace : c ≠ ' ') (s : List Char) : c ∈ dedent s ↔ c ∈ s := by
  have hdrop : ∀ least start dropped,
      c ∈ (dropIndent least start dropped (plain s)).map Prod.fst ↔ c ∈ s := by
    induction s with
    | nil => simp [plain, dropIndent]
    | cons d s ih =>
      intro least start dropped
      simp only [plain, List.map_cons, dropIndent] at ih ⊢
      by_cases hd : d = ' '
      · subst hd
        split_ifs <;> simp [ih, hspace]
      · split_ifs <;> simp_all
  exact hdrop _ _ _

theorem mem_skipFirstLine (hspace : c ≠ ' ') (hline : c ≠ '\n') (hend : EndsLine s) (hs : s ≠ []) :
    c ∈ skipFirstLine s ↔ c ∈ s := by
  rcases firstLine_cases hend hs with ⟨k, t, rfl⟩ | ⟨k, d, t, rfl, hd⟩
  · rw [skipFirstLine_blank]
    simp [hspace, hline]
  · rw [skipFirstLine_of_ne k hd.1 hd.2]

theorem mem_endLine (hline : c ≠ '\n') (s : List Char) : c ∈ endLine s ↔ c ∈ s := by
  unfold endLine
  split_ifs
  · rfl
  · simp [hline]

/-! ### Faithful literals -/

theorem nixMultiline_toList (value : String) (rest : List Char) :
    (nixMultiline value).toList ++ ';' :: rest =
      '\x27' :: '\x27' :: (escapeIndented (endLine value.toList) ++ closing rest) := by
  unfold nixMultiline closing
  rw [String.toList_ofList, guardDollars_tripleQuotes, endLine_escapeIndented]
  simp

theorem readIndented_toList (value : String) (rest : List Char) :
    readIndented ((nixMultiline value).toList ++ ';' :: rest) =
    (readBody .text (escapeIndented (skipFirstLine (endLine value.toList)) ++ closing rest)).bind fun r =>
      let value := (dropBlankEnd (stripIndentation r.1)).map Prod.fst
      if '\x00' ∈ value then none else some (value, r.2) := by
  unfold readIndented
  rw [nixMultiline_toList, if_pos (by simp), List.drop_succ_cons, List.drop_succ_cons, List.drop_zero,
    skipFirstLine_escapeIndented (endsLine_endLine value.toList) (endLine_ne_nil value.toList)]

theorem breaksOut_firstLine (value : String) :
    breaksOut (skipFirstLine (endLine value.toList)) = breaksOut value.toList := by
  rw [breaksOut_skipFirstLine (endsLine_endLine value.toList) (endLine_ne_nil value.toList), breaksOut_endLine]

theorem readIndented_nixMultiline {value : String} (h : breaksOut value.toList = false) (rest : List Char) :
    readIndented ((nixMultiline value).toList ++ ';' :: rest) =
      if '\x00' ∈ value.toList then none else some (dedent (skipFirstLine (endLine value.toList)), ';' :: rest) := by
  have hend := endsLine_endLine value.toList
  have hne := endLine_ne_nil value.toList
  obtain ⟨marks, hmarks, hread⟩ :=
    readBody_escapeIndented (endsLine_skipFirstLine hend hne) ((breaksOut_firstLine value).trans h) rest
  have hnul : '\x00' ∈ dedent (skipFirstLine (endLine value.toList)) ↔ '\x00' ∈ value.toList := by
    rw [mem_dedent (by decide), mem_skipFirstLine (by decide) (by decide) hend hne, mem_endLine (by decide)]
  rw [readIndented_toList, hread]
  simp only [Option.bind_some, hmarks.value (endsLine_skipFirstLine hend hne), hnul]

theorem readIndented_breaksOut {value : String} (h : breaksOut value.toList = true) (rest : List Char) :
    readIndented ((nixMultiline value).toList ++ ';' :: rest) = none := by
  rw [readIndented_toList, readBody_breaksOut ((breaksOut_firstLine value).trans h)]
  rfl

/-- The literal is read to its end, and its value is the text up to the final newline and the common indentation. -/
def FaithfulMultiline (value : String) (rest : List Char) : Prop :=
  ∃ read, readIndented ((nixMultiline value).toList ++ ';' :: rest) = some (read, ';' :: rest) ∧
    chomp read = chomp (dedent (endLine value.toList))

/-- A literal is faithful just if no `${` of its text has an odd number of quotes before it, its text has no NUL, and
its first line is not blank or is all there is. -/
theorem faithfulMultiline_iff (value : String) (rest : List Char) :
    FaithfulMultiline value rest ↔
      breaksOut value.toList = false ∧ '\x00' ∉ value.toList ∧ ¬ LosesFirstLine (endLine value.toList) := by
  have hfirst := chomp_dedent_skipFirstLine (endsLine_endLine value.toList) (endLine_ne_nil value.toList)
  cases h : breaksOut value.toList with
  | true =>
    constructor
    · rintro ⟨read, hread, -⟩
      rw [readIndented_breaksOut h] at hread
      cases hread
    · rintro ⟨hfalse, -⟩
      cases hfalse
  | false =>
    unfold FaithfulMultiline
    rw [readIndented_nixMultiline h]
    by_cases hnul : '\x00' ∈ value.toList
    · simp [hnul]
    · simp [hnul, hfirst]

/-- A quote before a dollar sign and a brace ends in an interpolation, and a blank first line is lost. -/
theorem quoted_brace_interpolates :
    readIndented ((nixMultiline "'$\x7bx\x7d").toList ++ [';']) = none ∧
      (readIndented ((nixMultiline "\nx").toList ++ [';'])).map Prod.fst = some ['x', '\n'] ∧
      ¬ FaithfulMultiline "'$\x7bx\x7d" [] ∧ ¬ FaithfulMultiline "\nx" [] := by
  refine ⟨by decide, by decide, ?_, ?_⟩
  · rintro ⟨read, hread, -⟩
    have hnone : readIndented ((nixMultiline "'$\x7bx\x7d").toList ++ [';']) = none := by decide
    rw [hnone] at hread
    cases hread
  · rintro ⟨read, hread, hvalue⟩
    have hsome : readIndented ((nixMultiline "\nx").toList ++ [';']) = some (['x', '\n'], [';']) := by decide
    rw [hsome] at hread
    cases hread
    revert hvalue
    decide

end Kcore.Nixgen
