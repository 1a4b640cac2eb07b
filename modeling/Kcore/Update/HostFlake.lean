import Kcore.Update.Plan

/-!
# The pins of a host flake

An update moves the `kcore` input of the host flake, and the `nixpkgs` input if the flake has one, by replacing the text
between two quotes. The place is found by a search for the first `kcore.url`, which may stand in a comment, in a longer
name or in the override of an input of another input. `pins_move` says when the search comes to the value of the input
itself.
-/

namespace Kcore.Update.HostFlake

/-! ### The code -/

/-- The text before and behind the first place where `needle` stands. -/
def cut (needle : List Char) : List Char → Option (List Char × List Char)
  | [] => none
  | c :: cs =>
    if needle <+: c :: cs then some ([], (c :: cs).drop needle.length)
    else (cut needle cs).map fun (before, after) => (c :: before, after)

def marker (name : String) : List Char := name.toList ++ ".url".toList

/-- The text up to the value that `replace_input_url` replaces, the value, and the text from its closing quote on. -/
def inputUrl (text : List Char) (name : String) : Except String (List Char × List Char × List Char) :=
  match cut (marker name) text with
  | none => .error ("host flake has no " ++ name ++ ".url")
  | some (before, after) =>
    match cut ['='] after with
    | none => .error (name ++ ".url has no value")
    | some (gap, rest) =>
      match cut ['"'] rest with
      | none => .error (name ++ ".url is not a quoted url")
      | some (blank, value) =>
        match cut ['"'] value with
        | none => .error (name ++ ".url value is not closed")
        | some (old, after) => .ok (before ++ marker name ++ gap ++ '=' :: blank ++ ['"'], old, '"' :: after)

def replaceInputUrl (text : List Char) (name : String) (url : List Char) : Except String (List Char) :=
  match inputUrl text name with
  | .error e => .error e
  | .ok (before, _, after) => .ok (before ++ url ++ after)

def flakeUrlAt (flakeRef pin : String) : String :=
  let flakeRef := String.ofList ((trim flakeRef).toList.reverse.dropWhile (· = '/')).reverse
  if ["github:", "gitlab:", "sourcehut:"].any (startsWith flakeRef) then flakeRef ++ "/" ++ pin
  else
    flakeRef ++ (if flakeRef.toList.contains '?' then "&" else "?") ++
      if (validateFlakeRev pin).isOk then "rev=" ++ pin else "ref=refs/tags/" ++ pin

structure Request where
  updateKind : String
  flakeRef : String
  flakeRev : String
  nixpkgsRev : String

def Request.kcoreUrl (r : Request) : List Char := (flakeUrlAt r.flakeRef r.flakeRev).toList

def Request.nixpkgsUrl (r : Request) : List Char := ("github:NixOS/nixpkgs/" ++ trim r.nixpkgsRev).toList

/-- The last part of `rewrite_host_inputs`: the `nixpkgs` input. -/
def moveNixpkgs (text : List Char) (r : Request) : Except String (List Char) :=
  match validateFlakeRev r.nixpkgsRev with
  | .error e => .error e
  | .ok _ => replaceInputUrl text "nixpkgs" r.nixpkgsUrl

/-- `rewrite_host_inputs`, from the text that is read to the text that is written. -/
def rewriteHostInputs (text : List Char) (r : Request) : Except String (List Char) :=
  let ownNixpkgs := marker "nixpkgs" <:+: text
  if r.updateKind = "nixpkgs" then
    if ownNixpkgs then moveNixpkgs text r
    else .error "this node builds the OS from the nixpkgs its kcore input locks; move the kcore rev instead"
  else
    match replaceInputUrl text "kcore" r.kcoreUrl with
    | .error e => .error e
    | .ok text => if ownNixpkgs ∧ trim r.nixpkgsRev ≠ "" then moveNixpkgs text r else .ok text

/-! ### Host flakes -/

/-- The binding `name.url = "value"` of a top-level input. White space and comments may stand around the `=`, and the
value is written as it stands between the quotes. -/
structure Binding where
  name : String
  gap : List Char
  blank : List Char
  value : List Char

def Binding.head (b : Binding) : List Char := marker b.name ++ b.gap ++ '=' :: b.blank ++ ['"']

inductive Piece where
  | other (text : List Char)
  | input (b : Binding)

def Piece.print : Piece → List Char
  | .other text => text
  | .input b => b.head ++ b.value ++ ['"']

abbrev Flake := List Piece

def Flake.text (flake : Flake) : List Char := flake.flatMap Piece.print

def Flake.split (name : String) : Flake → Option (List Char × List Char × List Char)
  | [] => none
  | .other text :: rest => (Flake.split name rest).map fun (before, value, after) => (text ++ before, value, after)
  | .input b :: rest =>
    if b.name = name then some (b.head, b.value, '"' :: Flake.text rest)
    else (Flake.split name rest).map fun (before, value, after) => (Piece.print (.input b) ++ before, value, after)

def Flake.set (name : String) (url : List Char) : Flake → Flake
  | [] => []
  | .other text :: rest => .other text :: Flake.set name url rest
  | .input b :: rest =>
    if b.name = name then .input { b with value := url } :: rest else .input b :: Flake.set name url rest

def Flake.has (flake : Flake) (name : String) : Bool := (flake.split name).isSome

/-! ### What is asked for -/

/-- A text that stands for itself between the quotes of a Nix string. -/
def Plain (url : List Char) : Prop := '"' ∉ url ∧ '\\' ∉ url ∧ ¬['$', '{'] <:+: url

def withKcore (flake : Flake) (r : Request) : Flake :=
  if r.updateKind = "nixpkgs" then flake else flake.set "kcore" r.kcoreUrl

def movesNixpkgs (flake : Flake) (r : Request) : Bool :=
  r.updateKind = "nixpkgs" || flake.has "nixpkgs" && trim r.nixpkgsRev ≠ ""

def requested (flake : Flake) (r : Request) : Flake :=
  if movesNixpkgs flake r then (withKcore flake r).set "nixpkgs" r.nixpkgsUrl else withKcore flake r

/-- A rewrite that leaves `out` moves the inputs to the requested URLs and nothing else, and the inputs are there. -/
structure PinsMove (flake : Flake) (r : Request) (out : List Char) : Prop where
  text : out = (requested flake r).text
  kcore : r.updateKind ≠ "nixpkgs" → flake.has "kcore" = true ∧ Plain r.kcoreUrl
  nixpkgs : movesNixpkgs flake r = true → flake.has "nixpkgs" = true ∧ Plain r.nixpkgsUrl

def First (needle before : List Char) : Prop := ∀ i < before.length, ¬needle <+: (before ++ needle).drop i

/-- From the first `name.url` on, the first quote behind the first `=` is the last character of the text. -/
def Leads (name : String) (text : List Char) : Prop :=
  ∃ before gap blank, text = before ++ marker name ++ gap ++ '=' :: blank ++ ['"'] ∧ First (marker name) before ∧
    '=' ∉ gap ∧ '"' ∉ blank

/-- The first `name.url` of the flake leads to the value of the input, and no quote stands in the value. -/
def Reaches (flake : Flake) (name : String) : Prop :=
  ∃ before value after, flake.split name = some (before, value, after) ∧ Leads name before ∧ '"' ∉ value

structure Clear (flake : Flake) (r : Request) : Prop where
  kcore : r.updateKind ≠ "nixpkgs" → Reaches flake "kcore" ∧ Plain r.kcoreUrl
  nixpkgs : r.updateKind = "nixpkgs" ∨ trim r.nixpkgsRev ≠ "" → marker "nixpkgs" <:+: flake.text →
    Reaches (withKcore flake r) "nixpkgs"

/-- The requested URLs are two, and none of them stands between two quotes of the flake already. -/
structure New (flake : Flake) (r : Request) : Prop where
  kcore : r.updateKind ≠ "nixpkgs" → r.kcoreUrl ∉ flake.text.splitOn '"'
  nixpkgs : r.nixpkgsUrl ∉ flake.text.splitOn '"'
  ne : r.kcoreUrl ≠ r.nixpkgsUrl

/-! ### The search -/

variable {flake : Flake} {name : String} {text before value old after url out : List Char} {r : Request}

theorem first_cons {m : List Char} {c : Char} : First m (c :: before) ↔ ¬m <+: c :: before ++ m ∧ First m before := by
  constructor
  · intro h
    exact ⟨h 0 (by simp), fun i hi => h (i + 1) (by simpa using hi)⟩
  · rintro ⟨h0, h⟩ i hi
    cases i with
    | zero => exact h0
    | succ i => exact h i (by simpa using hi)

theorem first_singleton {c : Char} : First [c] before ↔ c ∉ before := by
  induction before with
  | nil => simp [First]
  | cons d before ih =>
    rw [first_cons, ih]
    simp

theorem cut_eq_some {m : List Char} (hm : m ≠ []) :
    cut m text = some (before, after) ↔ text = before ++ m ++ after ∧ First m before := by
  induction text generalizing before with
  | nil => simp [cut, hm]
  | cons c cs ih =>
    by_cases hp : m <+: c :: cs
    · simp only [cut, hp, if_true, Option.some.injEq, Prod.mk.injEq]
      obtain ⟨rest, hrest⟩ := hp
      constructor
      · rintro ⟨rfl, rfl⟩
        rw [← hrest]
        exact ⟨by simp, fun i hi => absurd hi (Nat.not_lt_zero i)⟩
      · rintro ⟨htext, hfirst⟩
        cases before with
        | nil => exact ⟨rfl, by rw [htext]; simp⟩
        | cons d before =>
          -- The needle would stand at the beginning and behind `d` for the first time.
          refine absurd ?_ (first_cons.mp hfirst).1
          have hm' : m <+: c :: cs := ⟨rest, hrest⟩
          refine List.prefix_of_prefix_length_le hm' ⟨after, htext.symm⟩ ?_
          simp only [List.length_append]
          omega
    · simp only [cut, hp, if_false, Option.map_eq_some_iff, Prod.mk.injEq, Prod.exists]
      constructor
      · rintro ⟨before', after', hcut, rfl, rfl⟩
        obtain ⟨rfl, hfirst⟩ := ih.mp hcut
        refine ⟨by simp, first_cons.mpr ⟨fun h => hp ?_, hfirst⟩⟩
        exact h.trans ⟨after', by simp⟩
      · rintro ⟨htext, hfirst⟩
        cases before with
        | nil => exact absurd ⟨after, by simpa using htext.symm⟩ hp
        | cons d before =>
          obtain ⟨rfl, rfl⟩ := List.cons.inj htext
          exact ⟨before, after, ih.mpr ⟨rfl, (first_cons.mp hfirst).2⟩, rfl, rfl⟩

theorem cut_char_eq_some {c : Char} :
    cut [c] text = some (before, after) ↔ text = before ++ c :: after ∧ c ∉ before := by
  rw [cut_eq_some (List.cons_ne_nil _ _), first_singleton]
  simp

theorem marker_ne_nil (name : String) : marker name ≠ [] := by simp [marker]

/-- `before` and `after` stand around a value that the search for `name.url` finds. -/
structure Found (name : String) (text before old after : List Char) : Prop where
  text_eq : text = before ++ old ++ after
  leads : Leads name before
  quoteFree : '"' ∉ old
  closes : ∃ rest, after = '"' :: rest

theorem inputUrl_eq_ok : inputUrl text name = .ok (before, old, after) ↔ Found name text before old after := by
  constructor
  · intro h
    unfold inputUrl at h
    split at h
    · nomatch h
    rename_i before' _ hmarker
    obtain ⟨rfl, hfirst⟩ := (cut_eq_some (marker_ne_nil name)).mp hmarker
    split at h
    · nomatch h
    rename_i gap _ hcut
    obtain ⟨rfl, hgap⟩ := cut_char_eq_some.mp hcut
    split at h
    · nomatch h
    rename_i blank _ hcut
    obtain ⟨rfl, hblank⟩ := cut_char_eq_some.mp hcut
    split at h
    · nomatch h
    rename_i rest hcut
    obtain ⟨rfl, hold⟩ := cut_char_eq_some.mp hcut
    cases h
    exact ⟨by simp, ⟨before', gap, blank, rfl, hfirst, hgap, hblank⟩, hold, rest, rfl⟩
  · rintro ⟨rfl, ⟨before', gap, blank, rfl, hfirst, hgap, hblank⟩, hold, rest, rfl⟩
    have hmarker : cut (marker name) (before' ++ marker name ++ gap ++ '=' :: blank ++ ['"'] ++ old ++ '"' :: rest) =
        some (before', gap ++ '=' :: (blank ++ '"' :: (old ++ '"' :: rest))) :=
      (cut_eq_some (marker_ne_nil name)).mpr ⟨by simp, hfirst⟩
    have hcut : ∀ {c : Char} {gap rest : List Char}, c ∉ gap → cut [c] (gap ++ c :: rest) = some (gap, rest) := by
      intro c gap rest hc
      exact cut_char_eq_some.mpr ⟨rfl, hc⟩
    simp only [inputUrl, hmarker, hcut hgap, hcut hblank, hcut hold]

theorem replaceInputUrl_eq_ok : replaceInputUrl text name url = .ok out ↔
      ∃ before old after, Found name text before old after ∧ out = before ++ url ++ after := by
  simp only [← inputUrl_eq_ok]
  unfold replaceInputUrl
  cases inputUrl text name with
  | error e => simp
  | ok found =>
    obtain ⟨before, old, after⟩ := found
    simp [eq_comm]

/-! ### The inputs of a flake -/

structure Around (flake : Flake) (name : String) (before value after : List Char) : Prop where
  text : flake.text = before ++ value ++ after
  set : ∀ url, (flake.set name url).text = before ++ url ++ after
  opens : ∃ start, before = start ++ ['"']
  closes : ∃ rest, after = '"' :: rest
  marker : marker name <:+: before

theorem Flake.text_cons (piece : Piece) (rest : Flake) : Flake.text (piece :: rest) = piece.print ++ Flake.text rest :=
  List.flatMap_cons

theorem Around.cons (h : Around flake name before value after) {piece : Piece}
    (hset : ∀ url, Flake.set name url (piece :: flake) = piece :: flake.set name url) :
    Around (piece :: flake) name (piece.print ++ before) value after where
  text := by rw [Flake.text_cons, h.text]; simp
  set url := by rw [hset, Flake.text_cons, h.set]; simp
  opens := by
    obtain ⟨start, rfl⟩ := h.opens
    exact ⟨piece.print ++ start, by simp⟩
  closes := h.closes
  marker := h.marker.trans (List.suffix_append _ _).isInfix

theorem around_of_split (h : flake.split name = some (before, value, after)) :
    Around flake name before value after := by
  induction flake generalizing before with
  | nil => nomatch h
  | cons piece rest ih =>
    cases piece with
    | other text =>
      obtain ⟨⟨before', _, _⟩, hrest, heq⟩ := Option.map_eq_some_iff.mp h
      cases heq
      exact (ih hrest).cons fun _ => rfl
    | input b =>
      by_cases hname : b.name = name
      · simp only [Flake.split, hname, if_true, Option.some.injEq, Prod.mk.injEq] at h
        obtain ⟨rfl, rfl, rfl⟩ := h
        refine ⟨?_, fun url => ?_, ⟨_, rfl⟩, ⟨_, rfl⟩, ?_⟩
        · simp [Flake.text_cons, Piece.print]
        · simp [Flake.set, hname, Flake.text_cons, Piece.print, Binding.head]
        · exact ⟨[], b.gap ++ '=' :: b.blank ++ ['"'], by simp [Binding.head, hname]⟩
      · simp only [Flake.split, hname, if_false] at h
        obtain ⟨⟨before', _, _⟩, hrest, heq⟩ := Option.map_eq_some_iff.mp h
        cases heq
        exact (ih hrest).cons fun url => by simp [Flake.set, hname]

theorem Flake.has_eq_true :
    flake.has name = true ↔ ∃ before value after, flake.split name = some (before, value, after) := by
  simp [Flake.has, Option.isSome_iff_exists]

theorem marker_of_has (h : flake.has name = true) : marker name <:+: flake.text := by
  obtain ⟨before, value, after, hsplit⟩ := Flake.has_eq_true.mp h
  have haround := around_of_split hsplit
  rw [haround.text, List.append_assoc]
  exact haround.marker.trans (List.prefix_append _ _).isInfix

@[simp]
theorem Flake.has_other (text : List Char) (rest : Flake) (name : String) :
    Flake.has (.other text :: rest) name = rest.has name := by
  simp [Flake.has, Flake.split]

@[simp]
theorem Flake.has_input (b : Binding) (rest : Flake) (name : String) :
    Flake.has (.input b :: rest) name = (b.name = name || rest.has name) := by
  by_cases hname : b.name = name <;> simp [Flake.has, Flake.split, hname]

theorem Flake.has_set (flake : Flake) (name other : String) (url : List Char) :
    (flake.set other url).has name = flake.has name := by
  induction flake with
  | nil => rfl
  | cons piece rest ih =>
    cases piece with
    | other text => simp [Flake.set, ih]
    | input b =>
      by_cases hother : b.name = other
      · simp [Flake.set, hother]
      · simp [Flake.set, hother, ih]

theorem Reaches.has (h : Reaches flake name) : flake.has name = true := by
  obtain ⟨before, value, after, hsplit, -⟩ := h
  exact Flake.has_eq_true.mpr ⟨before, value, after, hsplit⟩

theorem Reaches.replace (h : Reaches flake name) (url : List Char) :
    replaceInputUrl flake.text name url = .ok (flake.set name url).text := by
  obtain ⟨before, value, after, hsplit, hleads, hvalue⟩ := h
  have haround := around_of_split hsplit
  exact replaceInputUrl_eq_ok.mpr
    ⟨before, value, after, ⟨haround.text, hleads, hvalue, haround.closes⟩, haround.set url⟩

/-! ### Texts between quotes -/

theorem splitOn_around (hopens : ∃ start, before = start ++ ['"'])
    (hcloses : ∃ rest, after = '"' :: rest) (value : List Char) :
    (before ++ value ++ after).splitOn '"' =
      before.dropLast.splitOn '"' ++ value.splitOn '"' ++ after.tail.splitOn '"' := by
  obtain ⟨start, rfl⟩ := hopens
  obtain ⟨rest, rfl⟩ := hcloses
  have htext : start ++ ['"'] ++ value ++ '"' :: rest = start ++ '"' :: (value ++ '"' :: rest) := by simp
  rw [htext, List.splitOn_append_cons_self, List.splitOn_append_cons_self]
  simp

theorem eq_of_splitOn_eq {text' : List Char} (h : text.splitOn '"' = text'.splitOn '"') : text = text' := by
  have hjoin := congrArg (fun parts => ['"'].intercalate parts) h
  simpa only [List.intercalate_splitOn] using hjoin

theorem eq_of_splitOn_dropLast {before' : List Char} (h : ∃ start, before = start ++ ['"'])
    (h' : ∃ start, before' = start ++ ['"']) (heq : before.dropLast.splitOn '"' = before'.dropLast.splitOn '"') :
    before = before' := by
  obtain ⟨start, rfl⟩ := h
  obtain ⟨start', rfl⟩ := h'
  have hstart := eq_of_splitOn_eq heq
  simpa using hstart

theorem eq_of_splitOn_tail {after' : List Char} (h : ∃ rest, after = '"' :: rest)
    (h' : ∃ rest, after' = '"' :: rest) (heq : after.tail.splitOn '"' = after'.tail.splitOn '"') : after = after' := by
  obtain ⟨rest, rfl⟩ := h
  obtain ⟨rest', rfl⟩ := h'
  have hrest := eq_of_splitOn_eq heq
  simpa using hrest

theorem Leads.opens (h : Leads name before) : ∃ start, before = start ++ ['"'] := by
  obtain ⟨start, gap, blank, rfl, -⟩ := h
  exact ⟨_, rfl⟩

theorem Found.splitOn (h : Found name text before old after) (hvalue : '"' ∉ value) :
    (before ++ value ++ after).splitOn '"' = before.dropLast.splitOn '"' ++ value :: after.tail.splitOn '"' := by
  rw [splitOn_around h.leads.opens h.closes, List.splitOn_eq_singleton hvalue]
  simp

theorem Around.splitOn (h : Around flake name before value after) (url : List Char) :
    (flake.set name url).text.splitOn '"' =
      before.dropLast.splitOn '"' ++ url.splitOn '"' ++ after.tail.splitOn '"' := by
  rw [h.set, splitOn_around h.opens h.closes]

theorem Found.reaches {before' after' : List Char}
    (hfound : Found name flake.text before old after) (hsplit : flake.split name = some (before', value, after'))
    (hbefore : before.dropLast.splitOn '"' = before'.dropLast.splitOn '"')
    (hafter : after.tail.splitOn '"' = after'.tail.splitOn '"') :
    before = before' ∧ after = after' ∧ Reaches flake name := by
  have haround := around_of_split hsplit
  obtain rfl := eq_of_splitOn_dropLast hfound.leads.opens haround.opens hbefore
  obtain rfl := eq_of_splitOn_tail hfound.closes haround.closes hafter
  have hold : old = value := by
    have htext := hfound.text_eq.symm.trans haround.text
    simpa using htext
  exact ⟨rfl, rfl, before, value, after, hsplit, hfound.leads, hold ▸ hfound.quoteFree⟩

theorem mem_splitOn_of_replace (hurl : '"' ∉ url) (h : replaceInputUrl text name url = .ok out) :
    url ∈ out.splitOn '"' := by
  obtain ⟨before, old, after, hfound, rfl⟩ := replaceInputUrl_eq_ok.mp h
  rw [hfound.splitOn hurl]
  exact List.mem_append_right _ List.mem_cons_self

theorem notMem_splitOn_set {other : List Char} (hhas : flake.has name = true)
    (hurl : '"' ∉ url) (hother : other ∉ flake.text.splitOn '"') (hne : url ≠ other) :
    other ∉ (flake.set name url).text.splitOn '"' := by
  obtain ⟨before, value, after, hsplit⟩ := Flake.has_eq_true.mp hhas
  have haround := around_of_split hsplit
  rw [haround.text, splitOn_around haround.opens haround.closes] at hother
  rw [haround.splitOn, List.splitOn_eq_singleton hurl]
  simp only [List.mem_append, List.mem_singleton, not_or] at hother ⊢
  exact ⟨⟨hother.1.1, hne.symm⟩, hother.2⟩

theorem reaches_of_replace (hurl : '"' ∉ url) (hnew : url ∉ flake.text.splitOn '"') (hhas : flake.has name = true)
    (h : replaceInputUrl flake.text name url = .ok out) (hout : out = (flake.set name url).text) :
    Reaches flake name := by
  obtain ⟨before, old, after, hfound, rfl⟩ := replaceInputUrl_eq_ok.mp h
  obtain ⟨before', value, after', hsplit⟩ := Flake.has_eq_true.mp hhas
  have hset := (around_of_split hsplit).splitOn url
  rw [← hout, hfound.splitOn hurl, List.splitOn_eq_singleton hurl, List.append_assoc, List.singleton_append] at hset
  rw [hfound.text_eq, hfound.splitOn hfound.quoteFree] at hnew
  have hbefore : url ∉ before.dropLast.splitOn '"' := fun hmem => hnew (List.mem_append_left _ hmem)
  have hafter : url ∉ after.tail.splitOn '"' := fun hmem => hnew (List.mem_append_right _ (List.mem_cons_of_mem _ hmem))
  obtain ⟨hstart, -, hrest⟩ := (List.append_cons_inj_of_notMem hbefore hafter).mp hset
  exact (hfound.reaches hsplit hstart hrest).2.2

/-! ### Two replacements -/

/-- If `u` takes the place of one element on the left and of the elements of `vs` on the right, and then one element on
the left and the elements of `ws` on the right are the same, the places are the same. -/
theorem eq_of_two_places {α : Type*} {u a b : α} {as bs ps qs vs ws xs ys : List α} (hvs : vs ≠ []) (hws : ws ≠ [])
    (hold : as ++ a :: bs = ps ++ vs ++ qs) (hleft : as ++ u :: bs = xs ++ b :: ys)
    (hright : ps ++ u :: qs = xs ++ ws ++ ys) (hu : u ∉ as ++ a :: bs) (hmem : u ∈ xs ∨ u ∈ ys) :
    as = ps ∧ bs = qs := by
  have hlength := congrArg List.length hold
  have hlength' := congrArg List.length hleft
  have hlength'' := congrArg List.length hright
  have hvs' := List.length_pos_iff.mpr hvs
  have hws' := List.length_pos_iff.mpr hws
  simp only [List.length_append, List.length_cons] at hlength hlength' hlength''
  obtain ⟨w, rfl⟩ : ∃ w, ws = [w] := List.length_eq_one_iff.mp (by omega)
  have hu' : u ∉ ps ++ vs ++ qs := hold ▸ hu
  have has : u ∉ as := fun h => hu (List.mem_append_left _ h)
  have hbs : u ∉ bs := fun h => hu (List.mem_append_right _ (List.mem_cons_of_mem _ h))
  have hps : u ∉ ps := fun h => hu' (List.mem_append_left _ (List.mem_append_left _ h))
  have hqs : u ∉ qs := fun h => hu' (List.mem_append_right _ h)
  obtain ⟨v, rfl⟩ : ∃ v, vs = [v] := List.length_eq_one_iff.mp (by omega)
  -- The place of `u` is in `xs` or in `ys`, so as many elements stand before it on both sides.
  have hlen : as.length = ps.length := by
    rcases hmem with hmem | hmem
    · obtain ⟨start, rest, rfl⟩ := List.append_of_mem hmem
      have hleft' : as ++ u :: bs = start ++ u :: (rest ++ b :: ys) := by simpa using hleft
      have hright' : ps ++ u :: qs = start ++ u :: (rest ++ w :: ys) := by simpa using hright
      have hstart := ((List.append_cons_inj_of_notMem has hbs).mp hleft').1
      have hstart' := ((List.append_cons_inj_of_notMem hps hqs).mp hright').1
      rw [hstart, hstart']
    · obtain ⟨start, rest, rfl⟩ := List.append_of_mem hmem
      have hleft' : as ++ u :: bs = (xs ++ b :: start) ++ u :: rest := by simpa using hleft
      have hright' : ps ++ u :: qs = (xs ++ w :: start) ++ u :: rest := by simpa using hright
      have hstart := ((List.append_cons_inj_of_notMem has hbs).mp hleft').1
      have hstart' := ((List.append_cons_inj_of_notMem hps hqs).mp hright').1
      simp [hstart, hstart']
  obtain ⟨hstart, hrest⟩ := List.append_inj (hold.trans (List.append_assoc _ _ _)) hlen
  exact ⟨hstart, (List.cons.inj hrest).2⟩

theorem quoted_infix_set (h : flake.has name = true) (url : List Char) :
    '"' :: url ++ ['"'] <:+: (flake.set name url).text := by
  obtain ⟨before, value, after, hsplit⟩ := Flake.has_eq_true.mp h
  have haround := around_of_split hsplit
  obtain ⟨start, rfl⟩ := haround.opens
  obtain ⟨rest, rfl⟩ := haround.closes
  rw [haround.set]
  exact ⟨start, rest, by simp⟩

theorem quoted_infix_split {other : String} (hne : name ≠ other) (hhas : flake.has other = true)
    (h : (flake.set other url).split name = some (before, value, after)) :
    '"' :: url ++ ['"'] <:+: before ∨ '"' :: url ++ ['"'] <:+: after := by
  induction flake generalizing before with
  | nil => nomatch hhas
  | cons piece rest ih =>
    cases piece with
    | other text =>
      obtain ⟨⟨before', _, _⟩, hrest, heq⟩ := Option.map_eq_some_iff.mp h
      cases heq
      rcases ih (by simpa using hhas) hrest with hin | hin
      · exact .inl (hin.trans (List.suffix_append _ _).isInfix)
      · exact .inr hin
    | input b =>
      by_cases hother : b.name = other
      · simp only [Flake.set, hother, if_true, Flake.split, hne.symm, if_false] at h
        obtain ⟨⟨before', _, _⟩, -, heq⟩ := Option.map_eq_some_iff.mp h
        cases heq
        exact .inl ⟨marker other ++ b.gap ++ '=' :: b.blank, before', by simp [Piece.print, Binding.head]⟩
      · have hhas' : Flake.has rest other = true := by simpa [hother] using hhas
        by_cases hname : b.name = name
        · simp only [Flake.set, hname, hne, if_false, Flake.split, if_true, Option.some.injEq, Prod.mk.injEq] at h
          obtain ⟨-, -, rfl⟩ := h
          exact .inr ((quoted_infix_set hhas' url).trans (List.suffix_cons _ _).isInfix)
        · simp only [Flake.set, hother, if_false, Flake.split, hname] at h
          obtain ⟨⟨before', _, _⟩, hrest, heq⟩ := Option.map_eq_some_iff.mp h
          cases heq
          rcases ih hhas' hrest with hin | hin
          · exact .inl (hin.trans (List.suffix_append _ _).isInfix)
          · exact .inr hin

theorem mem_splitOn_of_infix (hurl : '"' ∉ url) (h : '"' :: url ++ ['"'] <:+: text) : url ∈ text.splitOn '"' := by
  obtain ⟨start, rest, rfl⟩ := h
  have htext : start ++ ('"' :: url ++ ['"']) ++ rest = start ++ '"' :: (url ++ '"' :: rest) := by simp
  rw [htext, List.splitOn_append_cons_self, List.splitOn_append_cons_self, List.splitOn_eq_singleton hurl]
  simp

theorem mem_splitOn_split {other : String} (hne : name ≠ other) (hhas : flake.has other = true) (hurl : '"' ∉ url)
    (hnil : url ≠ []) (h : (flake.set other url).split name = some (before, value, after)) :
    url ∈ before.dropLast.splitOn '"' ∨ url ∈ after.tail.splitOn '"' := by
  have haround := around_of_split h
  rcases quoted_infix_split hne hhas h with hin | hin
  · obtain ⟨start, rfl⟩ := haround.opens
    have hmem := mem_splitOn_of_infix hurl hin
    rw [List.splitOn_append_cons_self] at hmem
    exact .inl (by simpa [hnil] using hmem)
  · obtain ⟨rest, rfl⟩ := haround.closes
    have hmem := mem_splitOn_of_infix hurl hin
    rw [← List.nil_append ('"' :: rest), List.splitOn_append_cons_self] at hmem
    exact .inr (by simpa [hnil] using hmem)

theorem notMem_around {α : Type*} {u a : α} {as bs : List α} (h : u ∉ as ++ a :: bs) : u ∉ as ∧ u ∉ bs := by
  simp only [List.mem_append, List.mem_cons, not_or] at h
  exact ⟨h.1, h.2.2⟩

theorem reaches_of_two {name' : String} (hne : name' ≠ name) {url' : List Char}
    (hurl : '"' ∉ url) (hurl' : '"' ∉ url') (hnil : url ≠ []) (hnew : url ∉ flake.text.splitOn '"')
    (hnew' : url' ∉ flake.text.splitOn '"') (hurls : url ≠ url') (hhas : flake.has name = true)
    (hhas' : flake.has name' = true) (h : replaceInputUrl flake.text name url = .ok text)
    (h' : replaceInputUrl text name' url' = .ok out) (hout : out = ((flake.set name url).set name' url').text) :
    Reaches flake name ∧ Reaches (flake.set name url) name' := by
  obtain ⟨before, old, after, hfound, htext⟩ := replaceInputUrl_eq_ok.mp h
  obtain ⟨start, old', rest, hfound', hout'⟩ := replaceInputUrl_eq_ok.mp h'
  obtain ⟨pre, value, post, hsplit⟩ := Flake.has_eq_true.mp hhas
  rw [← Flake.has_set flake name' name url] at hhas'
  obtain ⟨pre', value', post', hsplit'⟩ := Flake.has_eq_true.mp hhas'
  have haround := around_of_split hsplit
  have haround' := around_of_split hsplit'
  have hparts := hfound.splitOn hfound.quoteFree
  rw [← hfound.text_eq] at hparts
  have hleft := hfound.splitOn hurl
  rw [← htext, hfound'.text_eq, hfound'.splitOn hfound'.quoteFree] at hleft
  -- The second URL is new in the text that the first replacement leaves, so its place is that of the second input.
  have hnew'' : url' ∉ start.dropLast.splitOn '"' ++ old' :: rest.tail.splitOn '"' := by
    rw [hleft]
    have hnot := notMem_around (hparts ▸ hnew')
    simp [hnot, hurls.symm]
  have hnot := notMem_around hnew''
  have hset' := haround'.splitOn url'
  rw [← hout, hout', hfound'.splitOn hurl', List.splitOn_eq_singleton hurl', List.append_assoc,
    List.singleton_append] at hset'
  obtain ⟨hstart, -, hrest⟩ := (List.append_cons_inj_of_notMem hnot.1 hnot.2).mp hset'
  have hold : before.dropLast.splitOn '"' ++ old :: after.tail.splitOn '"' =
      pre.dropLast.splitOn '"' ++ value.splitOn '"' ++ post.tail.splitOn '"' := by
    rw [← hparts, haround.text, splitOn_around haround.opens haround.closes]
  have hright : pre.dropLast.splitOn '"' ++ url :: post.tail.splitOn '"' =
      pre'.dropLast.splitOn '"' ++ value'.splitOn '"' ++ post'.tail.splitOn '"' := by
    rw [← splitOn_around haround'.opens haround'.closes, ← haround'.text, haround.splitOn,
      List.splitOn_eq_singleton hurl, List.append_assoc, List.singleton_append]
  have hplaces := eq_of_two_places (List.splitOn_ne_nil _ _) (List.splitOn_ne_nil _ _) hold
    (hstart ▸ hrest ▸ hleft.symm) hright (hparts ▸ hnew) (mem_splitOn_split hne hhas hurl hnil hsplit')
  obtain ⟨rfl, rfl, hreaches⟩ := hfound.reaches hsplit hplaces.1 hplaces.2
  have htext' : text = (flake.set name url).text := htext.trans (haround.set url).symm
  exact ⟨hreaches, reaches_of_replace hurl' (notMem_splitOn_set hhas hurl hnew' hurls) hhas' (htext' ▸ h') hout⟩

/-! ### The rewrite -/

theorem kcoreUrl_ne_nil (r : Request) : r.kcoreUrl ≠ [] := by
  simp only [Request.kcoreUrl, flakeUrlAt]
  split
  · simp
  · split <;> simp

theorem plain_nixpkgsUrl (h : (validateFlakeRev r.nixpkgsRev).isOk = true) : Plain r.nixpkgsUrl := by
  unfold validateFlakeRev at h
  split at h
  · nomatch h
  rename_i hrev
  obtain ⟨-, hhex⟩ := not_or.mp hrev
  have hhex := List.all_eq_true.mp (not_not.mp hhex)
  have hnot : ∀ c, c ∉ "github:NixOS/nixpkgs/".toList →
      (c.isDigit || (c.toLower.toNat ≥ 97 && c.toLower.toNat ≤ 102)) = false → c ∉ r.nixpkgsUrl := by
    intro c hprefix hdigit hmem
    rw [Request.nixpkgsUrl, String.toList_append] at hmem
    rcases List.mem_append.mp hmem with hmem | hmem
    · exact hprefix hmem
    · exact Bool.false_ne_true (hdigit.symm.trans (hhex c hmem))
  refine ⟨hnot '"' (by decide) (by decide), hnot '\\' (by decide) (by decide), fun hin => ?_⟩
  exact hnot '$' (by decide) (by decide) (hin.subset List.mem_cons_self)

theorem moveNixpkgs_eq_ok (h : moveNixpkgs text r = .ok out) :
    Plain r.nixpkgsUrl ∧ replaceInputUrl text "nixpkgs" r.nixpkgsUrl = .ok out := by
  unfold moveNixpkgs at h
  split at h
  · nomatch h
  rename_i hrev
  have hok : (validateFlakeRev r.nixpkgsRev).isOk = true := by
    rw [hrev]
    rfl
  exact ⟨plain_nixpkgsUrl hok, h⟩

theorem rewriteHostInputs_cases (h : rewriteHostInputs text r = .ok out) :
    (r.updateKind = "nixpkgs" ∧ marker "nixpkgs" <:+: text ∧ moveNixpkgs text r = .ok out) ∨
      r.updateKind ≠ "nixpkgs" ∧ ∃ text', replaceInputUrl text "kcore" r.kcoreUrl = .ok text' ∧
        ((marker "nixpkgs" <:+: text ∧ trim r.nixpkgsRev ≠ "" ∧ moveNixpkgs text' r = .ok out) ∨
          ¬(marker "nixpkgs" <:+: text ∧ trim r.nixpkgsRev ≠ "") ∧ out = text') := by
  simp only [rewriteHostInputs] at h
  by_cases hkind : r.updateKind = "nixpkgs"
  · rw [if_pos hkind] at h
    split at h
    · exact .inl ⟨hkind, ‹_›, h⟩
    · nomatch h
  · rw [if_neg hkind] at h
    split at h
    · nomatch h
    rename_i text' htext
    refine .inr ⟨hkind, text', htext, ?_⟩
    split at h
    · rename_i hmoves
      exact .inl ⟨hmoves.1, hmoves.2, h⟩
    · rename_i hkeeps
      exact .inr ⟨hkeeps, (Except.ok.inj h).symm⟩

theorem withKcore_of_ne (hkind : r.updateKind ≠ "nixpkgs") :
    withKcore flake r = flake.set "kcore" r.kcoreUrl := if_neg hkind

theorem movesNixpkgs_of_ne (hkind : r.updateKind ≠ "nixpkgs") :
    movesNixpkgs flake r = true ↔ flake.has "nixpkgs" = true ∧ trim r.nixpkgsRev ≠ "" := by
  simp [movesNixpkgs, hkind]

theorem requested_of_keeps (hkind : r.updateKind ≠ "nixpkgs")
    (hkeeps : ¬(marker "nixpkgs" <:+: flake.text ∧ trim r.nixpkgsRev ≠ "")) :
    ¬movesNixpkgs flake r = true ∧ requested flake r = flake.set "kcore" r.kcoreUrl := by
  have hmoves : ¬movesNixpkgs flake r = true := by
    rw [movesNixpkgs_of_ne hkind]
    rintro ⟨hhas, hrev⟩
    exact hkeeps ⟨marker_of_has hhas, hrev⟩
  exact ⟨hmoves, (if_neg hmoves).trans (withKcore_of_ne hkind)⟩

theorem pinsMove_of_clear (h : rewriteHostInputs flake.text r = .ok out) (hclear : Clear flake r) :
    PinsMove flake r out := by
  rcases rewriteHostInputs_cases h with ⟨hkind, hin, hmove⟩ | ⟨hkind, text, hkcore, hrest⟩
  · obtain ⟨hplain, hreplace⟩ := moveNixpkgs_eq_ok hmove
    have hwith : withKcore flake r = flake := if_pos hkind
    have hmoves : movesNixpkgs flake r = true := by simp [movesNixpkgs, hkind]
    have hreaches := hclear.nixpkgs (.inl hkind) hin
    rw [hwith] at hreaches
    have hout := Except.ok.inj (hreplace.symm.trans (hreaches.replace _))
    refine ⟨?_, fun hne => absurd hkind hne, fun _ => ⟨hreaches.has, hplain⟩⟩
    rw [hout, requested, if_pos hmoves, hwith]
  · obtain ⟨hreaches, hplain⟩ := hclear.kcore hkind
    have hwith : withKcore flake r = flake.set "kcore" r.kcoreUrl := withKcore_of_ne hkind
    have htext := Except.ok.inj (hkcore.symm.trans (hreaches.replace _))
    rcases hrest with ⟨hin, hrev, hmove⟩ | ⟨hkeeps, rfl⟩
    · obtain ⟨hplain', hreplace⟩ := moveNixpkgs_eq_ok hmove
      have hreaches' := hclear.nixpkgs (.inr hrev) hin
      have hhas := hreaches'.has
      rw [hwith] at hreaches' hhas
      rw [Flake.has_set] at hhas
      rw [htext] at hreplace
      have hout := Except.ok.inj (hreplace.symm.trans (hreaches'.replace _))
      refine ⟨?_, fun _ => ⟨hreaches.has, hplain⟩, fun _ => ⟨hhas, hplain'⟩⟩
      rw [hout, requested, if_pos ((movesNixpkgs_of_ne hkind).mpr ⟨hhas, hrev⟩), hwith]
    · obtain ⟨hmoves, hrequested⟩ := requested_of_keeps hkind hkeeps
      exact ⟨by rw [htext, hrequested], fun _ => ⟨hreaches.has, hplain⟩, fun hm => absurd hm hmoves⟩

theorem clear_of_pinsMove (h : rewriteHostInputs flake.text r = .ok out) (hnew : New flake r)
    (hmove : PinsMove flake r out) : Clear flake r := by
  have hout := hmove.text
  rcases rewriteHostInputs_cases h with ⟨hkind, hin, hnixpkgs⟩ | ⟨hkind, text, hkcore, hrest⟩
  · obtain ⟨hplain, hreplace⟩ := moveNixpkgs_eq_ok hnixpkgs
    have hwith : withKcore flake r = flake := if_pos hkind
    have hmoves : movesNixpkgs flake r = true := by simp [movesNixpkgs, hkind]
    rw [requested, if_pos hmoves, hwith] at hout
    refine ⟨fun hne => absurd hkind hne, fun _ _ => ?_⟩
    rw [hwith]
    exact reaches_of_replace hplain.1 hnew.nixpkgs (hmove.nixpkgs hmoves).1 hreplace hout
  · obtain ⟨hhas, hplain⟩ := hmove.kcore hkind
    have hwith : withKcore flake r = flake.set "kcore" r.kcoreUrl := withKcore_of_ne hkind
    rcases hrest with ⟨hin, hrev, hnixpkgs⟩ | ⟨hkeeps, rfl⟩
    · obtain ⟨hplain', hreplace⟩ := moveNixpkgs_eq_ok hnixpkgs
      by_cases hhas' : flake.has "nixpkgs" = true
      · rw [requested, if_pos ((movesNixpkgs_of_ne hkind).mpr ⟨hhas', hrev⟩), hwith] at hout
        obtain ⟨hreaches, hreaches'⟩ := reaches_of_two (by decide) hplain.1 hplain'.1 (kcoreUrl_ne_nil r)
          (hnew.kcore hkind) hnew.nixpkgs hnew.ne hhas hhas' hkcore hreplace hout
        exact ⟨fun _ => ⟨hreaches, hplain⟩, fun _ _ => hwith ▸ hreaches'⟩
      · -- Nothing but the `kcore` input is to be moved, but the URL of `nixpkgs` is there.
        have hmoves : ¬movesNixpkgs flake r = true := fun hm => hhas' ((movesNixpkgs_of_ne hkind).mp hm).1
        rw [requested, if_neg hmoves, hwith] at hout
        exact absurd (hout ▸ mem_splitOn_of_replace hplain'.1 hreplace)
          (notMem_splitOn_set hhas hplain.1 hnew.nixpkgs hnew.ne)
    · rw [(requested_of_keeps hkind hkeeps).2] at hout
      refine ⟨fun _ => ⟨?_, hplain⟩, fun hor hin => ?_⟩
      · exact reaches_of_replace hplain.1 (hnew.kcore hkind) hhas hkcore hout
      · exact absurd ⟨hin, hor.resolve_left hkind⟩ hkeeps

/-- If the condition holds, a rewrite that does not fail moves the pins; if the requested URLs are new, it does so only
then. -/
theorem pins_move {flake : Flake} {r : Request} {out : List Char} (h : rewriteHostInputs flake.text r = .ok out) :
    (Clear flake r → PinsMove flake r out) ∧ (New flake r → PinsMove flake r out → Clear flake r) :=
  ⟨pinsMove_of_clear h, clear_of_pinsMove h⟩

def forked : Flake :=
  [.other "my-kcore.url = \"a\"; ".toList, .input ⟨"kcore", [' '], [' '], ['b']⟩, .other [';']]

def moveKcore : Request := ⟨"kcore", "c:d", "v1", ""⟩

/-- The URL is written into the input whose name ends in `kcore`. -/
theorem fork_moves_instead :
    rewriteHostInputs forked.text moveKcore =
        .ok "my-kcore.url = \"c:d?ref=refs/tags/v1\"; kcore.url = \"b\";".toList ∧
      (requested forked moveKcore).text = "my-kcore.url = \"a\"; kcore.url = \"c:d?ref=refs/tags/v1\";".toList := by
  constructor <;> decide

/-- Another input stands before, and one behind. -/
def unforked : Flake :=
  [.input ⟨"disko", [' '], [' '], ['a']⟩, .other "; ".toList, .input ⟨"kcore", [' '], [' '], ['b']⟩, .other [';'],
    .input ⟨"nixpkgs", [' '], [' '], ['c']⟩, .other [';']]

theorem unforked_moves : PinsMove unforked moveKcore
    "disko.url = \"a\"; kcore.url = \"c:d?ref=refs/tags/v1\";nixpkgs.url = \"c\";".toList := by
  refine (pins_move (by decide)).1 ⟨fun _ => ⟨?_, ?_⟩, ?_⟩
  · refine ⟨"disko.url = \"a\"; kcore.url = \"".toList, ['b'], "\";nixpkgs.url = \"c\";".toList, by decide, ?_,
      by decide⟩
    refine ⟨"disko.url = \"a\"; ".toList, [' '], [' '], by decide, ?_, by decide, by decide⟩
    unfold First
    decide
  · exact ⟨by decide, by decide, by decide⟩
  · rintro (hkind | hrev)
    · exact absurd hkind (by decide)
    · exact absurd rfl hrev

end Kcore.Update.HostFlake
