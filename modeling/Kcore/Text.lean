import Mathlib.Algebra.Ring.Int.Defs
import Mathlib.Algebra.Ring.Nat
import Mathlib.Data.List.DropRight
import Mathlib.Data.List.Infix

/-!
# Text operations

The string operations of the source that depend on the Unicode tables or search in a text: trimming, splitting
at white space, ASCII lower case and the substring test.
-/

namespace Kcore

/-- `char::is_whitespace`: the Unicode property White_Space. -/
def isWhitespace (c : Char) : Bool :=
  let n := c.toNat
  (9 ≤ n && n ≤ 13) || n == 32 || n == 0x85 || n == 0xA0 || n == 0x1680 || (0x2000 ≤ n && n ≤ 0x200A) ||
    n == 0x2028 || n == 0x2029 || n == 0x202F || n == 0x205F || n == 0x3000

def trim (s : String) : String :=
  String.ofList ((s.toList.dropWhile isWhitespace).reverse.dropWhile isWhitespace).reverse

def toAsciiLowercase (s : String) : String := String.ofList (s.toList.map Char.toLower)

def splitWhitespace (s : String) : List String :=
  ((s.toList.splitOnP isWhitespace).filter (· ≠ [])).map String.ofList

/-- `str::lines`: what stands before each line feed, less one carriage return, and the rest if there is one. -/
def lines (s : String) : List String :=
  let segments := s.toList.splitOnP (· = '\n')
  (segments.dropLast.map fun l => if l.getLast? = some '\r' then l.dropLast else l).map String.ofList ++
    (segments.getLast?.toList.filter (· ≠ [])).map String.ofList

def textContains (s needle : String) : Bool := decide (needle.toList <:+: s.toList)

def startsWith (s p : String) : Bool := p.toList.isPrefixOf s.toList

def stripPrefix (s p : String) : Option String :=
  if p.toList.isPrefixOf s.toList then some (String.ofList (s.toList.drop p.toList.length)) else none

/-- `str::trim_start_matches` with a text: it is taken away as often as it stands there. -/
def trimStartMatches (s p : String) : String :=
  let rec go : Nat → List Char → List Char
    | 0, l => l
    | n + 1, l => if p.toList.isPrefixOf l then go n (l.drop p.toList.length) else l
  String.ofList (go s.toList.length s.toList)

/-- `str::split_once` with a character: what stands before and after its first occurrence. -/
def splitOnce (s : String) (c : Char) : Option (String × String) :=
  if c ∈ s.toList then
    some (String.ofList (s.toList.takeWhile (· ≠ c)), String.ofList ((s.toList.dropWhile (· ≠ c)).drop 1))
  else none

/-- `str::rsplit_once` with a character: what stands before and after its last occurrence. -/
def rsplitOnce (s : String) (c : Char) : Option (String × String) :=
  if c ∈ s.toList then
    let fromEnd := s.toList.reverse
    some (String.ofList ((fromEnd.dropWhile (· ≠ c)).drop 1).reverse, String.ofList (fromEnd.takeWhile (· ≠ c)).reverse)
  else none

def splitAll (s : String) (c : Char) : List String := (s.toList.splitOnP (· = c)).map String.ofList

/-- `parse` into an unsigned type whose values are below `limit`: decimal digits, after a `+` or not. -/
def parseUnsigned (limit : Nat) (s : String) : Option Nat :=
  let digits := (stripPrefix s "+").getD s
  if digits ≠ "" ∧ digits.toList.all Char.isDigit then
    let n := digits.toList.foldl (fun n c => n * 10 + (c.toNat - '0'.toNat)) 0
    if n < limit then some n else none
  else none

def parseU8 (s : String) : Option Nat := parseUnsigned 256 s

def parseU16 (s : String) : Option Nat := parseUnsigned 65536 s

def asBytes (s : String) : List UInt8 := s.toByteArray.data.toList

theorem asBytes_injective : Function.Injective asBytes := by
  intro s t h
  apply String.toByteArray_inj.mp
  exact ByteArray.ext (Array.toList_inj.mp h)

theorem asBytes_eq_nil {s : String} : asBytes s = [] ↔ s = "" := by
  constructor
  · intro h
    exact asBytes_injective h
  · rintro rfl
    rfl

theorem asBytes_ofList (l : List Char) : asBytes (String.ofList l) = l.flatMap String.utf8EncodeChar := by
  rw [asBytes, String.toByteArray_ofList, List.utf8Encode, List.data_toByteArray, List.toList_toArray]

/-- `v as i32` on a 64-bit value: the low 32 bits, read as a signed number. -/
def asI32 (v : Int) : Int := Int.bmod v (2 ^ 32)

def FitsI32 (v : Int) : Prop := -2 ^ 31 ≤ v ∧ v < 2 ^ 31

instance (v : Int) : Decidable (FitsI32 v) := inferInstanceAs (Decidable (_ ∧ _))

theorem asI32_of_fits {v : Int} (h : FitsI32 v) : asI32 v = v := by
  obtain ⟨hlo, hhi⟩ := h
  unfold asI32 Int.bmod
  dsimp only
  split <;> omega

def tryI32 (v : Int) : Option Int := if -2 ^ 31 ≤ v ∧ v < 2 ^ 31 then some v else none

def fitsI64 (v : Int) : Bool := decide (-2 ^ 63 ≤ v ∧ v < 2 ^ 63)

theorem stripPrefix_eq_some {s p rest : String} : stripPrefix s p = some rest ↔ s = p ++ rest := by
  unfold stripPrefix
  rw [← String.toList_inj, String.toList_append]
  split_ifs with h
  · obtain ⟨t, ht⟩ := List.isPrefixOf_iff_prefix.mp h
    rw [← ht, List.drop_left, Option.some.injEq, List.append_cancel_left_eq, ← String.toList_inj, String.toList_ofList]
  · refine ⟨fun heq => absurd heq (by simp), fun heq => absurd (List.isPrefixOf_iff_prefix.mpr ?_) h⟩
    exact ⟨rest.toList, heq.symm⟩

theorem trim_trim (s : String) : trim (trim s) = trim s := by
  unfold trim
  rw [String.toList_ofList]
  generalize hl : s.toList.dropWhile isWhitespace = l
  have hfront : (l.rdropWhile isWhitespace).dropWhile isWhitespace = l.rdropWhile isWhitespace := by
    have hpre := List.rdropWhile_prefix isWhitespace (l := l)
    rw [List.dropWhile_eq_self_iff]
    intro hpos
    have hl0 : 0 < l.length := Nat.lt_of_lt_of_le hpos hpre.length_le
    have hfst := List.dropWhile_get_zero_not isWhitespace s.toList (by rw [hl]; exact hl0)
    rw [List.IsPrefix.getElem hpre]
    simpa [hl] using hfst
  have hback := List.rdropWhile_idempotent (p := isWhitespace) l
  unfold List.rdropWhile at hfront hback
  rw [hfront, hback]

theorem isWhitespace_of_isAlphanum {c : Char} (h : c.isAlphanum = true) : isWhitespace c = false := by
  delta Char.isAlphanum Char.isAlpha Char.isUpper Char.isLower Char.isDigit at h
  simp only [Bool.or_eq_true, Bool.and_eq_true, decide_eq_true_eq, ge_iff_le, UInt32.le_iff_toNat_le] at h
  simp only [Char.reduceVal, UInt32.reduceToNat, Char.toNat_val] at h
  simp only [isWhitespace, Bool.or_eq_false_iff, Bool.and_eq_false_iff, decide_eq_false_iff_not, beq_eq_false_iff_ne]
  omega

theorem trim_of_ends {s : String} (hhead : ∀ c ∈ s.toList.head?, isWhitespace c = false)
    (hlast : ∀ c ∈ s.toList.getLast?, isWhitespace c = false) : trim s = s := by
  have hdrop : ∀ l : List Char, (∀ c ∈ l.head?, isWhitespace c = false) → l.dropWhile isWhitespace = l := by
    intro l hl
    cases l with
    | nil => rfl
    | cons c l => rw [List.dropWhile_cons_of_neg (by simp [hl c rfl])]
  unfold trim
  rw [hdrop _ hhead, hdrop _ (by rwa [List.head?_reverse]), List.reverse_reverse, String.ofList_toList]

theorem trim_of_no_whitespace {s : String} (h : ∀ c ∈ s.toList, isWhitespace c = false) : trim s = s :=
  trim_of_ends (fun c hc => h c (List.mem_of_mem_head? hc)) fun c hc => h c (List.mem_of_mem_getLast? hc)

theorem splitOnce_append {c : Char} {a sep : String} (ha : c ∉ a.toList) (hsep : sep.toList = [c]) (b : String) :
    splitOnce (a ++ sep ++ b) c = some (a, b) := by
  have htext : (a ++ sep ++ b).toList = a.toList ++ c :: b.toList := by simp [hsep]
  have hne : ∀ d ∈ a.toList, decide (d ≠ c) = true := fun d hd => decide_eq_true fun heq => ha (heq ▸ hd)
  unfold splitOnce
  rw [htext, if_pos (by simp), List.takeWhile_append_of_pos hne, List.dropWhile_append_of_pos hne]
  simp

/-! ### Lists of words -/

def IsToken (s : String) : Prop := s ≠ "" ∧ ∀ c ∈ s.toList, isWhitespace c = false

instance (s : String) : Decidable (IsToken s) :=
  decidable_of_iff (s ≠ "" ∧ (s.toList.all fun c => !isWhitespace c) = true) (by simp [IsToken])

theorem not_mem_of_mem_splitOnP {α : Type} {p : α → Bool} {xs l : List α} (hl : l ∈ xs.splitOnP p) :
    ∀ x ∈ l, p x = false := by
  induction xs generalizing l with
  | nil =>
    rw [List.splitOnP_nil, List.mem_singleton] at hl
    simp [hl]
  | cons a xs ih =>
    rw [List.splitOnP_cons_eq_if_modifyHead] at hl
    split at hl
    · rcases List.mem_cons.mp hl with rfl | hl
      · simp
      · exact ih hl
    · rename_i ha
      obtain ⟨first, rest, hsplit⟩ := List.exists_cons_of_ne_nil (List.splitOnP_ne_nil p xs)
      rw [hsplit, List.modifyHead_cons, List.mem_cons] at hl
      rcases hl with rfl | hl
      · intro x hx
        rcases List.mem_cons.mp hx with rfl | hx
        · simpa using ha
        · exact ih (hsplit ▸ List.mem_cons_self ..) x hx
      · exact ih (hsplit ▸ List.mem_cons_of_mem _ hl)

theorem isToken_of_mem_splitWhitespace {s word : String} (h : word ∈ splitWhitespace s) : IsToken word := by
  unfold splitWhitespace at h
  obtain ⟨l, hl, rfl⟩ := List.mem_map.mp h
  obtain ⟨hl, hne⟩ := List.mem_filter.mp hl
  refine ⟨fun hempty => ?_, fun c hc => ?_⟩
  · have : l = [] := by simpa using congrArg String.toList hempty
    simp [this] at hne
  · rw [String.toList_ofList] at hc
    exact not_mem_of_mem_splitOnP hl c hc

theorem splitWhitespace_intercalate (words : List String) (h : ∀ w ∈ words, IsToken w) :
    splitWhitespace (" ".intercalate words) = words := by
  induction words with
  | nil => rfl
  | cons w words ih =>
    obtain ⟨hne, hw⟩ := h w (List.mem_cons_self ..)
    have hne' : w.toList ≠ [] := fun hnil => hne (String.toList_inj.mp (hnil.trans rfl))
    have hrest := ih fun v hv => h v (List.mem_cons_of_mem _ hv)
    cases words with
    | nil =>
      unfold splitWhitespace
      rw [String.toList_intercalate, List.map_singleton, List.intercalate_singleton, List.splitOnP_eq_singleton hw]
      simp [hne']
    | cons v words =>
      unfold splitWhitespace at hrest ⊢
      have hjoin : (" ".intercalate (w :: v :: words)).toList =
          w.toList ++ ' ' :: (" ".intercalate (v :: words)).toList := by
        simp [String.toList_intercalate]
      rw [hjoin, List.splitOnP_append_cons_of_forall_mem hw ' ' (by decide),
        List.filter_cons_of_pos (by simpa using hne'),
        List.map_cons, hrest, String.ofList_toList]

theorem splitAll_intercalate {c : Char} {sep : String} (hsep : sep.toList = [c]) {parts : List String}
    (hne : parts ≠ []) (h : ∀ part ∈ parts, c ∉ part.toList) : splitAll (sep.intercalate parts) c = parts := by
  induction parts with
  | nil => exact absurd rfl hne
  | cons part parts ih =>
    have hpart : ∀ d ∈ part.toList, decide (d = c) = false := by
      intro d hd
      exact decide_eq_false fun heq => h part List.mem_cons_self (heq ▸ hd)
    cases parts with
    | nil =>
      unfold splitAll
      rw [String.toList_intercalate, List.map_singleton, List.intercalate_singleton, List.splitOnP_eq_singleton hpart]
      simp
    | cons next parts =>
      have hrest := ih (List.cons_ne_nil _ _) fun other hother => h other (List.mem_cons_of_mem _ hother)
      unfold splitAll at hrest ⊢
      have hjoin : (sep.intercalate (part :: next :: parts)).toList =
          part.toList ++ c :: (sep.intercalate (next :: parts)).toList := by
        simp [String.toList_intercalate, hsep]
      rw [hjoin, List.splitOnP_append_cons_of_forall_mem hpart c (by simp), List.map_cons, hrest,
        String.ofList_toList]

example : trim " Unsafe\n" = "Unsafe" := by decide

example : splitWhitespace " web-1  db\t" = ["web-1", "db"] := by decide

example : lines "web ceph\r\n\ndb" = ["web ceph", "", "db"] := by decide

example : asI32 4294967295 = -1 := by decide

end Kcore
