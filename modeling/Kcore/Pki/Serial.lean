import Mathlib.Data.Nat.Digits.Defs
import Kcore.Net.IpAddr

/-!
# Serials as an operator writes them

The inventory has the serial of a certificate as the bytes of its DER integer in hexadecimal, so with a zero byte in
front when the first bit is set. An operator may write the number with colons, blanks, a `0x` and any zeros in front.
`resolve_serial` tries the text itself, the text without its zeros and the text with one or two zeros more.

All of these denote the number that was written, so a certificate that is found is the right one; only a negative serial
has the bytes of another number. A stored text (`digits_eq_zeros`) with a zero in front is found only for up to as many
digits as it has (`resolves_iff`).
-/

namespace Kcore.Pki.Serial

/-! ### The code -/

def digitChar (d : Nat) : Char := Char.ofNat (if d < 10 then 48 + d else 55 + d)

def write (ds : List Nat) : String := String.ofList (ds.map digitChar)

def digits (bytes : List UInt8) : List Nat := bytes.flatMap fun b => [b.toNat / 16, b.toNat % 16]

def hexUpper (bytes : List UInt8) : String := write (digits bytes)

def normalizeSerial (input : String) : String :=
  let rest := trimStartMatches (trimStartMatches (trim input) "0x") "0X"
  String.ofList ((rest.toList.filter IpAddr.isHexDigit).map Char.toUpper)

/-- The texts that `resolve_serial` looks for. Its argument is a normal form, so the length in bytes is that in
characters. -/
def candidates (serial : String) : List String :=
  let stripped := String.ofList (serial.toList.dropWhile (· = '0'))
  serial :: ((if stripped ≠ "" ∧ stripped ≠ serial then [stripped] else []) ++
    [if serial.toList.length % 2 = 1 then "0" ++ serial else "00" ++ serial])

def resolveSerial (stored : List String) (serial : String) : Option String :=
  (candidates serial).find? fun candidate => decide (candidate ∈ stored)

/-! ### Numbers -/

def number (base : Nat) (ds : List Nat) : Nat := ds.foldl (fun n d => d + base * n) 0

def hexValue (c : Char) : Nat :=
  if c.toNat < 65 then c.toNat - 48 else if c.toNat < 97 then c.toNat - 55 else c.toNat - 87

/-- The bytes of an integer in DER: the shortest ones of its two's complement. -/
def IsDer : List UInt8 → Prop
  | [] => False
  | [_] => True
  | a :: b :: _ => ¬(a = 0 ∧ b < 128) ∧ ¬(a = 255 ∧ 128 ≤ b)

instance : DecidablePred IsDer
  | [] => isFalse id
  | [_] => isTrue trivial
  | a :: b :: _ => inferInstanceAs (Decidable (¬(a = 0 ∧ b < 128) ∧ ¬(a = 255 ∧ 128 ≤ b)))

def Negative (bytes : List UInt8) : Prop := ∃ a ∈ bytes.head?, 128 ≤ a

instance (bytes : List UInt8) : Decidable (Negative bytes) :=
  match bytes with
  | [] => isFalse (by rintro ⟨_, h, -⟩; cases h)
  | a :: _ => decidable_of_iff (128 ≤ a) (by simp [Negative])

def integer (bytes : List UInt8) : Int :=
  number 256 (bytes.map UInt8.toNat) - ((if Negative bytes then 256 ^ bytes.length else 0 : Nat) : Int)

structure Inventory where
  serials : List (List UInt8)
  der : ∀ bytes ∈ serials, IsDer bytes

def Inventory.texts (inv : Inventory) : List String := inv.serials.map hexUpper

/-- A hexadecimal spelling of a number: in blanks, perhaps `0x`, then digits with colons and blanks among them. -/
structure Spelling where
  text : String
  mark : List Char
  body : List Char
  trim_eq : (trim text).toList = mark ++ body
  mark_mem : mark ∈ [[], ['0', 'x'], ['0', 'X']]
  body_chars : ∀ c ∈ body, IpAddr.isHexDigit c = true ∨ c = ':' ∨ isWhitespace c = true
  digit : ∃ c ∈ body, IpAddr.isHexDigit c = true

def Spelling.digits (t : Spelling) : List Nat := (t.body.filter IpAddr.isHexDigit).map hexValue

def Spelling.number (t : Spelling) : Nat := Serial.number 16 t.digits

/-- The spelling of a stored serial gives its text, and that of any other number nothing. -/
def Resolves (inv : Inventory) (t : Spelling) : Prop :=
  (∀ bytes ∈ inv.serials, integer bytes = t.number →
      resolveSerial inv.texts (normalizeSerial t.text) = some (hexUpper bytes)) ∧
    ((∀ bytes ∈ inv.serials, integer bytes ≠ t.number) →
      resolveSerial inv.texts (normalizeSerial t.text) = none)

/-! ### Digits and numbers -/

theorem digitChar_of_isHexDigit {c : Char} (h : IpAddr.isHexDigit c = true) :
    c.toUpper = digitChar (hexValue c) ∧ hexValue c < 16 := by
  have hsmall : c.toNat < 128 := by
    simp only [IpAddr.isHexDigit, Char.isDigit, Bool.or_eq_true, Bool.and_eq_true, decide_eq_true_eq] at h
    rcases h with (⟨-, h⟩ | ⟨-, h⟩) | ⟨-, h⟩
    · exact Nat.lt_of_le_of_lt (UInt32.le_iff_toNat_le.mp h) (by decide)
    · omega
    · omega
  have hall : ∀ n < 128, IpAddr.isHexDigit (Char.ofNat n) = true →
      (Char.ofNat n).toUpper = digitChar (hexValue (Char.ofNat n)) ∧ hexValue (Char.ofNat n) < 16 := by decide
  have := hall c.toNat hsmall
  rw [Char.ofNat_toNat] at this
  exact this h

variable {d : Nat} {ds : List Nat} {bytes : List UInt8}

theorem hexValue_digitChar (h : d < 16) : hexValue (digitChar d) = d := by
  revert d
  decide

theorem write_injOn {es : List Nat} (hds : ∀ d ∈ ds, d < 16) (hes : ∀ d ∈ es, d < 16) (h : write ds = write es) :
    ds = es := by
  have hmap := congrArg (List.map hexValue) (String.ofList_inj.mp h)
  have hback : ∀ l : List Nat, (∀ d ∈ l, d < 16) → (l.map digitChar).map hexValue = l := by
    intro l hl
    rw [List.map_map]
    exact (List.map_congr_left fun d hd => hexValue_digitChar (hl d hd)).trans l.map_id
  rwa [hback ds hds, hback es hes] at hmap

theorem number_eq_ofDigits (base : Nat) (ds : List Nat) : number base ds = Nat.ofDigits base ds.reverse := by
  rw [Nat.ofDigits_eq_foldr, List.foldr_reverse]
  rfl

theorem number_zeros (base i : Nat) (ds : List Nat) : number base (List.replicate i 0 ++ ds) = number base ds := by
  have hzero : (List.replicate i 0).foldl (fun n d => d + base * n) 0 = 0 := by
    induction i with
    | zero => rfl
    | succ i ih => simpa [List.replicate_succ] using ih
  rw [number, List.foldl_append, hzero]
  rfl

theorem eq_zeros (ds : List Nat) : ∃ i, ds = List.replicate i 0 ++ ds.dropWhile (· = 0) := by
  induction ds with
  | nil => exact ⟨0, rfl⟩
  | cons d ds ih =>
    by_cases hd : d = 0
    · obtain ⟨i, hi⟩ := ih
      refine ⟨i + 1, ?_⟩
      rw [List.dropWhile_cons_of_pos (by simpa using hd), List.replicate_succ, List.cons_append, ← hi, hd]
    · refine ⟨0, ?_⟩
      rw [List.dropWhile_cons_of_neg (by simpa using hd)]
      rfl

theorem number_dropWhile (base : Nat) (ds : List Nat) : number base (ds.dropWhile (· = 0)) = number base ds := by
  obtain ⟨i, hi⟩ := eq_zeros ds
  conv_rhs => rw [hi]
  exact (number_zeros base i _).symm

theorem digits_of_number (hds : ∀ d ∈ ds, d < 16) : Nat.digits 16 (number 16 ds) = (ds.dropWhile (· = 0)).reverse := by
  rw [← number_dropWhile, number_eq_ofDigits]
  refine Nat.digits_ofDigits 16 (by decide) _ (fun d hd => ?_) fun hne => ?_
  · exact hds d (List.dropWhile_sublist _ |>.subset (List.mem_reverse.mp hd))
  · have hhead := List.head_dropWhile_not (fun d => decide (d = 0)) (by simpa using hne)
    rw [List.getLast_reverse]
    simpa using hhead

theorem dropWhile_eq_of_number_eq {es : List Nat} (hds : ∀ d ∈ ds, d < 16) (hes : ∀ d ∈ es, d < 16)
    (h : number 16 ds = number 16 es) : ds.dropWhile (· = 0) = es.dropWhile (· = 0) := by
  have := digits_of_number hds
  rw [h, digits_of_number hes] at this
  exact (List.reverse_inj.mp this).symm

/-! ### Stored serials -/

theorem digits_lt : ∀ d ∈ digits bytes, d < 16 := by
  intro d hd
  obtain ⟨b, -, hb⟩ := List.mem_flatMap.mp hd
  have := b.toNat_lt
  simp only [List.mem_cons, List.not_mem_nil, or_false] at hb
  omega

theorem number_digits (bytes : List UInt8) : number 16 (digits bytes) = number 256 (bytes.map UInt8.toNat) := by
  suffices h : ∀ n, (digits bytes).foldl (fun n d => d + 16 * n) n =
      (bytes.map UInt8.toNat).foldl (fun n d => d + 256 * n) n from h 0
  induction bytes with
  | nil => exact fun _ => rfl
  | cons b bytes ih =>
    intro n
    have hstep : b.toNat % 16 + 16 * (b.toNat / 16 + 16 * n) = b.toNat + 256 * n := by omega
    simp only [digits, List.flatMap_cons, List.cons_append, List.nil_append, List.foldl_cons, List.map_cons, hstep]
    exact ih _

theorem number_lt (bytes : List UInt8) : number 256 (bytes.map UInt8.toNat) < 256 ^ bytes.length := by
  have hbytes : ∀ d ∈ (bytes.map UInt8.toNat).reverse, d < 256 := by
    intro d hd
    obtain ⟨b, -, rfl⟩ := List.mem_map.mp (List.mem_reverse.mp hd)
    exact b.toNat_lt
  have hlt := Nat.ofDigits_lt_base_pow_length (by decide) hbytes
  rwa [List.length_reverse, List.length_map, ← number_eq_ofDigits] at hlt

theorem integer_eq_iff {n : Nat} : integer bytes = n ↔ ¬Negative bytes ∧ number 16 (digits bytes) = n := by
  have hlt := number_lt bytes
  rw [number_digits]
  unfold integer
  generalize 256 ^ bytes.length = limit at *
  by_cases hneg : Negative bytes
  · simp only [hneg, if_true, not_true, false_and, iff_false]
    omega
  · simp only [hneg, if_false, not_false_iff, true_and]
    omega

theorem integer_neg_iff : integer bytes < 0 ↔ Negative bytes := by
  have hlt := number_lt bytes
  unfold integer
  generalize 256 ^ bytes.length = limit at *
  by_cases hneg : Negative bytes
  · simp only [hneg, if_true, iff_true]
    omega
  · simp only [hneg, if_false, iff_false]
    omega

def padding (significant : List Nat) : Nat :=
  match significant with
  | [] => 2
  | d :: rest => if rest.length % 2 = 0 then 1 else if 8 ≤ d then 2 else 0

theorem padding_of_odd {rest : List Nat} (h : rest.length % 2 = 0) : padding (d :: rest) = 1 := if_pos h

theorem padding_of_even {rest : List Nat} (h : rest.length % 2 = 1) :
    padding (d :: rest) = if 8 ≤ d then 2 else 0 :=
  if_neg (by omega)

theorem digits_cons (a : UInt8) (bytes : List UInt8) :
    digits (a :: bytes) = (a.toNat / 16) :: (a.toNat % 16) :: digits bytes := rfl

theorem length_digits (bytes : List UInt8) : (digits bytes).length = 2 * bytes.length := by
  induction bytes with
  | nil => rfl
  | cons a bytes ih =>
    simp only [digits_cons, List.length_cons, ih]
    omega

theorem negative_cons {a : UInt8} : Negative (a :: bytes) ↔ 8 ≤ a.toNat / 16 := by
  have hle : Negative (a :: bytes) ↔ 128 ≤ a := by simp [Negative]
  rw [hle, UInt8.le_iff_toNat_le]
  change 128 ≤ a.toNat ↔ 8 ≤ a.toNat / 16
  omega

theorem dropWhile_of_head {rest : List Nat} (h : d ≠ 0) : (d :: rest).dropWhile (· = 0) = d :: rest :=
  List.dropWhile_cons_of_neg (by simpa using h)

theorem digits_eq_zeros (h : IsDer bytes) (hpos : ¬Negative bytes) :
    digits bytes =
      List.replicate (padding ((digits bytes).dropWhile (· = 0))) 0 ++ (digits bytes).dropWhile (· = 0) := by
  cases bytes with
  | nil => exact h.elim
  | cons a rest =>
    have hsmall : ¬8 ≤ a.toNat / 16 := fun hle => hpos (negative_cons.mpr hle)
    have heven : (digits rest).length % 2 = 0 := by
      rw [length_digits]
      omega
    rw [digits_cons]
    by_cases hhigh : a.toNat / 16 = 0
    · rw [hhigh, List.dropWhile_cons_of_pos (by simp)]
      by_cases hlow : a.toNat % 16 = 0
      · -- the first byte is zero, so it is the only one or the next one has its first bit set
        rw [hlow, List.dropWhile_cons_of_pos (by simp)]
        cases rest with
        | nil => rfl
        | cons b rest =>
          have ha : a = 0 := UInt8.toNat_inj.mp (by simp; omega)
          have hb : 8 ≤ b.toNat / 16 := by
            have hle : 128 ≤ b := UInt8.not_lt.mp fun hlt => h.1 ⟨ha, hlt⟩
            have hle : 128 ≤ b.toNat := UInt8.le_iff_toNat_le.mp hle
            omega
          rw [digits_cons, List.length_cons] at heven
          rw [digits_cons, dropWhile_of_head (by omega), padding_of_even (by omega), if_pos hb]
          rfl
      · rw [dropWhile_of_head hlow, padding_of_odd heven]
        rfl
    · rw [dropWhile_of_head hhigh, padding_of_even (by rw [List.length_cons]; omega), if_neg hsmall]
      rfl

/-- A negative serial has no zero in front; the number of its bytes would be stored with two. -/
theorem digits_of_negative (hneg : Negative bytes) :
    (digits bytes).dropWhile (· = 0) = digits bytes ∧ padding (digits bytes) = 2 := by
  cases bytes with
  | nil => obtain ⟨_, h, -⟩ := hneg; cases h
  | cons a rest =>
    have hlarge := negative_cons.mp hneg
    have heven := length_digits rest
    rw [digits_cons]
    refine ⟨dropWhile_of_head (by omega), ?_⟩
    rw [padding_of_even (by rw [List.length_cons]; omega), if_pos hlarge]

/-! ### Spellings -/

theorem trimStartMatches_go_of_ne {p : String} {l : List Char} (h : ¬p.toList.isPrefixOf l = true) (n : Nat) :
    trimStartMatches.go p n l = l := by
  cases n with
  | zero => rfl
  | succ n => exact if_neg h

namespace Spelling

variable (t : Spelling)

theorem not_mem_body {x : Char} (hx : x = 'x' ∨ x = 'X') : x ∉ t.body := by
  intro hmem
  have hchars := t.body_chars x hmem
  rcases hx with rfl | rfl <;> exact absurd hchars (by decide)

theorem not_isPrefixOf_body {x : Char} (hx : x = 'x' ∨ x = 'X') : ¬['0', x].isPrefixOf t.body = true := by
  intro h
  obtain ⟨rest, hrest⟩ := List.isPrefixOf_iff_prefix.mp h
  exact t.not_mem_body hx (hrest ▸ by simp)

theorem normalizeSerial_eq : normalizeSerial t.text = write t.digits := by
  have hrest : (trimStartMatches (trimStartMatches (trim t.text) "0x") "0X").toList = t.body := by
    have hlower : ¬"0x".toList.isPrefixOf t.body = true := t.not_isPrefixOf_body (.inl rfl)
    have hupper : ¬"0X".toList.isPrefixOf t.body = true := t.not_isPrefixOf_body (.inr rfl)
    have hmark := t.mark_mem
    simp only [List.mem_cons, List.not_mem_nil, or_false] at hmark
    simp only [trimStartMatches, String.toList_ofList, t.trim_eq]
    rcases hmark with h | h | h
    · rw [h, List.nil_append, trimStartMatches_go_of_ne hlower, trimStartMatches_go_of_ne hupper]
    · have hone : trimStartMatches.go "0x" (['0', 'x'] ++ t.body).length (['0', 'x'] ++ t.body) = t.body :=
        trimStartMatches_go_of_ne hlower _
      rw [h, hone, trimStartMatches_go_of_ne hupper]
    · have hnone : ¬"0x".toList.isPrefixOf (['0', 'X'] ++ t.body) = true := by simp [List.isPrefixOf]
      rw [h, trimStartMatches_go_of_ne hnone]
      exact trimStartMatches_go_of_ne hupper _
  have hdigits : (t.body.filter IpAddr.isHexDigit).map Char.toUpper = t.digits.map digitChar := by
    rw [digits, List.map_map]
    refine List.map_congr_left fun c hc => ?_
    exact (digitChar_of_isHexDigit (List.mem_filter.mp hc).2).1
  rw [write, ← hdigits, ← hrest]
  rfl

theorem digits_lt : ∀ d ∈ t.digits, d < 16 := by
  intro d hd
  obtain ⟨c, hc, rfl⟩ := List.mem_map.mp hd
  exact (digitChar_of_isHexDigit (List.mem_filter.mp hc).2).2

theorem digits_ne_nil : t.digits ≠ [] := by
  obtain ⟨c, hc, hdigit⟩ := t.digit
  exact List.ne_nil_of_mem (List.mem_map_of_mem (List.mem_filter.mpr ⟨hc, hdigit⟩))

end Spelling

/-! ### The candidates -/

def zeros (i : Nat) (significant : List Nat) : List Nat := List.replicate i 0 ++ significant

section

variable {significant : List Nat} {i j : Nat}

theorem zeros_inj : zeros i significant = zeros j significant ↔ i = j := by
  refine ⟨fun h => ?_, fun h => h ▸ rfl⟩
  simpa [zeros] using congrArg List.length h

theorem zeros_lt (h : ∀ d ∈ significant, d < 16) : ∀ d ∈ zeros i significant, d < 16 := by
  intro d hd
  rcases List.mem_append.mp hd with hd | hd
  · rw [List.eq_of_mem_replicate hd]
    decide
  · exact h d hd

theorem dropWhile_zeros (h : significant.dropWhile (· = 0) = significant) :
    (zeros i significant).dropWhile (· = 0) = significant := by
  induction i with
  | zero => exact h
  | succ i ih => exact (List.dropWhile_cons_of_pos (by simp)).trans ih

theorem digitChar_eq_zero (h : d < 16) : digitChar d = '0' ↔ d = 0 := by
  revert d
  decide

theorem dropWhile_map_digitChar (h : ∀ d ∈ ds, d < 16) :
    (ds.map digitChar).dropWhile (· = '0') = (ds.dropWhile (· = 0)).map digitChar := by
  induction ds with
  | nil => rfl
  | cons d ds ih =>
    have hd := digitChar_eq_zero (h d List.mem_cons_self)
    by_cases hzero : d = 0
    · rw [List.map_cons, List.dropWhile_cons_of_pos (by simpa using hd.mpr hzero),
        List.dropWhile_cons_of_pos (by simpa using hzero)]
      exact ih fun e he => h e (List.mem_cons_of_mem d he)
    · rw [List.map_cons, List.dropWhile_cons_of_neg (by simpa using fun h => hzero (hd.mp h)), dropWhile_of_head hzero,
        List.map_cons]

def tried (k length : Nat) : List Nat :=
  k :: ((if length ≠ 0 ∧ k ≠ 0 then [0] else []) ++ [if (k + length) % 2 = 1 then k + 1 else k + 2])

theorem write_zeros_succ : write (zeros (i + 1) significant) = "0" ++ write (zeros i significant) := by
  rw [← String.toList_inj]
  simp only [write, zeros, List.replicate_succ, List.cons_append, List.map_cons, String.toList_ofList,
    String.toList_append]
  rfl

section

variable (hlt : ∀ d ∈ significant, d < 16) (hhead : significant.dropWhile (· = 0) = significant)
include hlt

theorem write_zeros_inj : write (zeros i significant) = write (zeros j significant) ↔ i = j :=
  ⟨fun h => zeros_inj.mp (write_injOn (zeros_lt hlt) (zeros_lt hlt) h), fun h => h ▸ rfl⟩

include hhead

theorem candidates_write (k : Nat) : candidates (write (zeros k significant)) =
    (tried k significant.length).map fun i => write (zeros i significant) := by
  have hstripped : String.ofList ((write (zeros k significant)).toList.dropWhile (· = '0')) =
      write (zeros 0 significant) := by
    rw [write, String.toList_ofList, dropWhile_map_digitChar (zeros_lt hlt), dropWhile_zeros hhead]
    rfl
  have hempty : write (zeros 0 significant) = "" ↔ significant.length = 0 := by
    rw [← String.toList_inj]
    simp [write, zeros]
  have hlength : (write (zeros k significant)).toList.length = k + significant.length := by simp [write, zeros]
  have htwo : write (zeros (k + 2) significant) = "00" ++ write (zeros k significant) := by
    rw [write_zeros_succ, write_zeros_succ, ← String.append_assoc]
    rfl
  simp only [candidates, hstripped, hlength, tried, ne_eq, hempty, write_zeros_inj hlt, List.map_cons, List.map_append,
    List.map_nil, eq_comm (a := 0) (b := k)]
  congr 2
  · split <;> rfl
  · split
    · rw [write_zeros_succ]
    · rw [htwo]

theorem resolveSerial_write (stored : List String) (k : Nat) :
    resolveSerial stored (write (zeros k significant)) =
      ((tried k significant.length).find? fun i => decide (write (zeros i significant) ∈ stored)).map
        fun i => write (zeros i significant) := by
  rw [resolveSerial, candidates_write hlt hhead, List.find?_map]
  rfl

theorem digits_eq_of_integer (hder : IsDer bytes) (hint : integer bytes = number 16 significant) :
    digits bytes = zeros (padding significant) significant := by
  obtain ⟨hpos, hnumber⟩ := integer_eq_iff.mp hint
  have hdrop := dropWhile_eq_of_number_eq digits_lt hlt hnumber
  have heq := digits_eq_zeros hder hpos
  rwa [hdrop, hhead] at heq

def Stored (inv : Inventory) (n : Nat) : Prop := ∃ bytes ∈ inv.serials, integer bytes = n

def NegativeStored (inv : Inventory) (ds : List Nat) : Prop :=
  ∃ bytes ∈ inv.serials, integer bytes < 0 ∧ digits bytes = ds

theorem mem_texts_iff (inv : Inventory) : write (zeros i significant) ∈ inv.texts ↔
    (Stored inv (number 16 significant) ∧ i = padding significant) ∨ (NegativeStored inv significant ∧ i = 0) := by
  constructor
  · intro hmem
    obtain ⟨bytes, hbytes, htext⟩ := List.mem_map.mp hmem
    have hdigits : digits bytes = zeros i significant := write_injOn digits_lt (zeros_lt hlt) htext
    by_cases hneg : Negative bytes
    · have hsame : digits bytes = significant := by
        rw [← (digits_of_negative hneg).1, hdigits, dropWhile_zeros hhead]
      exact .inr ⟨⟨bytes, hbytes, integer_neg_iff.mpr hneg, hsame⟩, zeros_inj.mp (hdigits.symm.trans hsame)⟩
    · have hint : integer bytes = number 16 significant :=
        integer_eq_iff.mpr ⟨hneg, by rw [hdigits, zeros, number_zeros]⟩
      have hpadded := digits_eq_of_integer hlt hhead (inv.der bytes hbytes) hint
      exact .inl ⟨⟨bytes, hbytes, hint⟩, zeros_inj.mp (hdigits.symm.trans hpadded)⟩
  · rintro (⟨⟨bytes, hbytes, hint⟩, rfl⟩ | ⟨⟨bytes, hbytes, -, hdigits⟩, rfl⟩)
    · have hpadded := digits_eq_of_integer hlt hhead (inv.der bytes hbytes) hint
      exact List.mem_map.mpr ⟨bytes, hbytes, by rw [hexUpper, hpadded]⟩
    · exact List.mem_map.mpr ⟨bytes, hbytes, by rw [hexUpper, hdigits]; rfl⟩

end

end

/-- Which of the tried numbers of zeros is found first: `p` is that of the stored serial of the number, and a negative
serial is found without zeros. -/
theorem first_tried_iff {P N : Prop} [Decidable P] [Decidable N] {k m p : Nat} (hodd : m % 2 = 1 → p = 1)
    (heven : m % 2 = 0 → p = 0 ∨ p = 2) (hzero : m = 0 → p = 2 ∧ k ≠ 0) (hneg : N → p = 2 ∧ m ≠ 0) :
    ((P → (tried k m).find? (fun i => decide ((P ∧ i = p) ∨ (N ∧ i = 0))) = some p) ∧
      (¬P → (tried k m).find? (fun i => decide ((P ∧ i = p) ∨ (N ∧ i = 0))) = none)) ↔
    (P → p = 0 ∨ k ≤ p) ∧ (N → P ∧ k = p) := by
  by_cases hP : P
  · by_cases hN : N
    · simp only [hP, hN, true_and, true_implies, not_true, false_implies, and_true]
      simp only [tried, List.find?_cons]
      grind
    · simp only [hP, hN, true_and, false_and, or_false, true_implies, not_true, false_implies, and_true]
      simp only [tried, List.find?_cons]
      grind
  · by_cases hN : N
    · simp only [hP, hN, true_and, false_and, false_or, true_implies, not_false_iff, false_implies]
      simp only [tried, List.find?_cons]
      grind
    · simp [hP, hN]

theorem padding_odd {significant : List Nat} (h : significant.length % 2 = 1) : padding significant = 1 := by
  cases significant with
  | nil => cases h
  | cons d rest => exact padding_of_odd (by rw [List.length_cons] at h; omega)

theorem padding_even {significant : List Nat} (h : significant.length % 2 = 0) :
    padding significant = 0 ∨ padding significant = 2 := by
  cases significant with
  | nil => exact .inr rfl
  | cons d rest =>
    rw [padding_of_even (by rw [List.length_cons] at h; omega)]
    by_cases hd : 8 ≤ d
    · exact .inr (if_pos hd)
    · exact .inl (if_neg hd)

theorem padding_of_negativeStored {inv : Inventory} (h : NegativeStored inv ds) : padding ds = 2 ∧ ds.length ≠ 0 := by
  obtain ⟨bytes, hbytes, hneg, rfl⟩ := h
  refine ⟨(digits_of_negative (integer_neg_iff.mp hneg)).2, ?_⟩
  rw [length_digits]
  intro hlength
  have hnil : bytes = [] := List.eq_nil_of_length_eq_zero (by omega)
  exact (hnil ▸ inv.der bytes hbytes : IsDer [])

section

variable {inv : Inventory} {t : Spelling} {k : Nat} {significant : List Nat} (hk : t.digits = zeros k significant)
  (hlt : ∀ d ∈ significant, d < 16) (hhead : significant.dropWhile (· = 0) = significant)
include hk

theorem number_eq : t.number = number 16 significant := by
  rw [Spelling.number, hk, zeros, number_zeros]

include hlt hhead

theorem head_hexUpper (hder : IsDer bytes) (hint : integer bytes = t.number) :
    (hexUpper bytes).toList.head? ≠ some '0' ↔ padding significant = 0 := by
  rw [number_eq hk] at hint
  rw [hexUpper, digits_eq_of_integer hlt hhead hder hint, write, String.toList_ofList]
  by_cases hzero : padding significant = 0
  · simp only [hzero, iff_true]
    cases significant with
    | nil => cases hzero
    | cons d rest =>
      have hd : d ≠ 0 := by
        rintro rfl
        rw [List.dropWhile_cons_of_pos (by simp)] at hhead
        have hle := (List.dropWhile_sublist (l := rest) fun d => decide (d = 0)).length_le
        rw [hhead, List.length_cons] at hle
        omega
      intro hsome
      exact hd ((digitChar_eq_zero (hlt d List.mem_cons_self)).mp (Option.some_inj.mp hsome))
  · obtain ⟨i, hi⟩ := Nat.exists_eq_succ_of_ne_zero hzero
    simp only [hzero, iff_false, not_not]
    rw [hi]
    rfl

open Classical in
theorem resolves_iff_first : Resolves inv t ↔
    (Stored inv t.number → (tried k significant.length).find? (fun i => decide ((Stored inv t.number ∧
      i = padding significant) ∨ (NegativeStored inv significant ∧ i = 0))) = some (padding significant)) ∧
    (¬Stored inv t.number → (tried k significant.length).find? (fun i => decide ((Stored inv t.number ∧
      i = padding significant) ∨ (NegativeStored inv significant ∧ i = 0))) = none) := by
  have hnumber := number_eq hk
  have htest : (fun i => decide (write (zeros i significant) ∈ inv.texts)) = fun i => decide ((Stored inv t.number ∧
      i = padding significant) ∨ (NegativeStored inv significant ∧ i = 0)) := by
    funext i
    rw [hnumber]
    exact decide_eq_decide.mpr (mem_texts_iff hlt hhead inv)
  have hresolve := resolveSerial_write hlt hhead inv.texts k
  rw [htest, ← hk, ← t.normalizeSerial_eq] at hresolve
  unfold Resolves
  rw [hresolve]
  generalize (tried k significant.length).find? _ = first
  refine and_congr ⟨fun h => ?_, fun h bytes hbytes hint => ?_⟩ ⟨fun h hnone => ?_, fun h hnone => ?_⟩
  · rintro ⟨bytes, hbytes, hint⟩
    have hsome := h bytes hbytes hint
    rw [hexUpper, digits_eq_of_integer hlt hhead (inv.der bytes hbytes) (hnumber ▸ hint),
      Option.map_eq_some_iff] at hsome
    obtain ⟨i, hi, heq⟩ := hsome
    rw [hi, (write_zeros_inj hlt).mp heq]
  · rw [h ⟨bytes, hbytes, hint⟩, Option.map_some, hexUpper,
      digits_eq_of_integer hlt hhead (inv.der bytes hbytes) (hnumber ▸ hint)]
  · exact Option.map_eq_none_iff.mp (h fun bytes hbytes hint => hnone ⟨bytes, hbytes, hint⟩)
  · rw [h fun ⟨bytes, hbytes, hint⟩ => hnone bytes hbytes hint]
    rfl

end

/-- A spelling is resolved exactly when the stored text of the number has no zero in front or at least as many digits
as the spelling, and no negative serial has the bytes of the number unless the digits are written as they are stored. -/
theorem resolves_iff (inv : Inventory) (t : Spelling) : Resolves inv t ↔
    (∀ bytes ∈ inv.serials, integer bytes = t.number →
        (hexUpper bytes).toList.head? ≠ some '0' ∨ t.digits.length ≤ (hexUpper bytes).toList.length) ∧
      (∀ bytes ∈ inv.serials, integer bytes < 0 → digits bytes = t.digits.dropWhile (· = 0) →
        ∃ other ∈ inv.serials, integer other = t.number ∧ digits other = t.digits) := by
  classical
  obtain ⟨k, hk⟩ := eq_zeros t.digits
  have hlt : ∀ d ∈ t.digits.dropWhile (· = 0), d < 16 :=
    fun d hd => t.digits_lt d ((List.dropWhile_sublist _).subset hd)
  have hhead : (t.digits.dropWhile (· = 0)).dropWhile (· = 0) = t.digits.dropWhile (· = 0) :=
    List.dropWhile_idempotent _ _
  have hnil := t.digits_ne_nil
  generalize t.digits.dropWhile (· = 0) = significant at *
  change t.digits = zeros k significant at hk
  have hzero : significant.length = 0 → padding significant = 2 ∧ k ≠ 0 := by
    intro hlength
    obtain rfl := List.eq_nil_of_length_eq_zero hlength
    refine ⟨rfl, ?_⟩
    rintro rfl
    exact hnil hk
  rw [resolves_iff_first hk hlt hhead, first_tried_iff padding_odd padding_even hzero padding_of_negativeStored]
  have hstored : ∀ bytes ∈ inv.serials, integer bytes = t.number →
      digits bytes = zeros (padding significant) significant :=
    fun bytes hbytes hint => digits_eq_of_integer hlt hhead (inv.der bytes hbytes) (number_eq hk ▸ hint)
  have hlength : ∀ bytes ∈ inv.serials, integer bytes = t.number →
      (t.digits.length ≤ (hexUpper bytes).toList.length ↔ k ≤ padding significant) := by
    intro bytes hbytes hint
    rw [hexUpper, hstored bytes hbytes hint, hk]
    simp [write, zeros]
  refine and_congr ⟨fun h bytes hbytes hint => ?_, ?_⟩ ⟨?_, ?_⟩
  · rw [head_hexUpper hk hlt hhead (inv.der bytes hbytes) hint, hlength bytes hbytes hint]
    exact h ⟨bytes, hbytes, hint⟩
  · rintro h ⟨bytes, hbytes, hint⟩
    have := h bytes hbytes hint
    rwa [head_hexUpper hk hlt hhead (inv.der bytes hbytes) hint, hlength bytes hbytes hint] at this
  · intro h bytes hbytes hneg hdigits
    obtain ⟨⟨other, hother, hint⟩, rfl⟩ := h ⟨bytes, hbytes, hneg, hdigits⟩
    exact ⟨other, hother, hint, (hstored other hother hint).trans hk.symm⟩
  · rintro h ⟨bytes, hbytes, hneg, hdigits⟩
    obtain ⟨other, hother, hint, heq⟩ := h bytes hbytes hneg hdigits
    rw [hstored other hother hint, hk] at heq
    exact ⟨⟨other, hother, hint⟩, (zeros_inj.mp heq).symm⟩

def tenInventory : Inventory := ⟨[[10]], by decide⟩

def paddedTen : Spelling where
  text := "00A"
  mark := []
  body := ['0', '0', 'A']
  trim_eq := by decide
  mark_mem := by decide
  body_chars c hc := .inl (List.all_eq_true.mp (by decide : ['0', '0', 'A'].all IpAddr.isHexDigit = true) c hc)
  digit := ⟨'A', by decide, by decide⟩

theorem padded_ten_not_found : ¬Resolves tenInventory paddedTen := by
  intro h
  exact absurd (h.1 [10] List.mem_cons_self (by decide)) (by decide)

end Kcore.Pki.Serial
