import Kcore.Lib.Checks
import Kcore.Text
import Mathlib.Algebra.Order.BigOperators.Group.List
import Mathlib.Algebra.Order.Ring.Nat
import Mathlib.Data.List.Induction
import Mathlib.Data.Nat.Bitwise

/-!
# Sentences of the RouterOS API

The provisioning service talks to a router in sentences. A sentence is a list of words, a word is written behind its
length, and a word of length zero ends the sentence. A length takes one to five bytes, and the leading bits of the
first one say how many: `0`, `10`, `110`, `1110`, and the byte `0xF0`. The reader knows all five forms, the writer
only the first four.

What comes out of the reader is compared with what went into the writer by counting bytes: the reader cannot return a
word for fewer bytes than the shortest form of its length takes, and the writer pays one byte less than that for each
word that needs the fifth form.
-/

namespace Kcore.Provisioning.RouterOs

open Checks

abbrev Bytes := List UInt8

/-! ### Writing -/

def header (len : Nat) : Bytes :=
  if len < 0x80 then [UInt8.ofNat len]
  else if len < 0x4000 then
    let n := len ||| 0x8000
    [UInt8.ofNat (n >>> 8), UInt8.ofNat n]
  else if len < 0x200000 then
    let n := len ||| 0xC00000
    [UInt8.ofNat (n >>> 16), UInt8.ofNat (n >>> 8), UInt8.ofNat n]
  else
    let n := len ||| 0xE0000000
    [UInt8.ofNat (n >>> 24), UInt8.ofNat (n >>> 16), UInt8.ofNat (n >>> 8), UInt8.ofNat n]

def encodeWord (word : Bytes) : Bytes := header word.length ++ word

def sentence (words : List String) : Bytes := words.flatMap (fun word => encodeWord (asBytes word)) ++ [0]

/-! ### Reading -/

def readExact (n : Nat) (stream : Bytes) : Except String (Bytes × Bytes) :=
  if n ≤ stream.length then .ok (stream.take n, stream.drop n) else .error "failed to fill whole buffer"

/-- A number of so many bytes, the most significant first; `u32::from_be_bytes` for four of them. -/
def bigEndian (bytes : Bytes) : Nat := bytes.foldl (fun n byte => (n <<< 8) ||| byte.toNat) 0

/-- The rest of a length whose first byte holds `high` as its value and is followed by `n` bytes. -/
def readRest (high n : Nat) (stream : Bytes) : Except String (Nat × Bytes) := do
  let (rest, stream) ← readExact n stream
  .ok (high <<< (8 * n) ||| bigEndian rest, stream)

def readLength : Bytes → Except String (Nat × Bytes)
  | [] => .error "failed to fill whole buffer"
  | c :: stream =>
    if c &&& 0x80 = 0 then .ok (c.toNat, stream)
    else if c &&& 0xC0 = 0x80 then readRest (c &&& ~~~0xC0).toNat 1 stream
    else if c &&& 0xE0 = 0xC0 then readRest (c &&& ~~~0xE0).toNat 2 stream
    else if c &&& 0xF0 = 0xE0 then readRest (c &&& ~~~0xF0).toNat 3 stream
    else if c = 0xF0 then readRest 0 4 stream
    else .error ("routeros length byte " ++ String.ofList (Nat.toDigits 16 c.toNat))

def readWord (stream : Bytes) : Except String (Bytes × Bytes) := do
  let (len, stream) ← readLength stream
  readExact len stream

/-- The loop of `read_sentence`. A word takes a byte at least, so the length of the stream is fuel enough. -/
def readWords : Nat → Bytes → Except String (List Bytes × Bytes)
  | 0, _ => .error "failed to fill whole buffer"
  | fuel + 1, stream => do
    let (word, stream) ← readWord stream
    if word = [] then .ok ([], stream)
    else
      let (words, stream) ← readWords fuel stream
      .ok (word :: words, stream)

/-- `String::from_utf8_lossy`: it keeps a text, and nothing is said of what it makes of bytes that are none. -/
structure Lossy where
  text : Bytes → String
  text_asBytes : ∀ word : String, text (asBytes word) = word

/-- `read_sentence`, with what is left of the stream. -/
def readSentence (lossy : Lossy) (stream : Bytes) : Except String (List String × Bytes) := do
  let (words, stream) ← readWords stream.length stream
  .ok (words.map lossy.text, stream)

def readSentences (lossy : Lossy) : Nat → Bytes → Except String (List (List String) × Bytes)
  | 0, stream => .ok ([], stream)
  | n + 1, stream => do
    let (words, stream) ← readSentence lossy stream
    let (sentences, stream) ← readSentences lossy n stream
    .ok (words :: sentences, stream)

/-! ### The forms of a length -/

theorem masks_byte : ∀ n < 256,
    (UInt8.ofNat n &&& 0x80 = 0 ↔ n < 0x80) ∧
    (UInt8.ofNat n &&& 0xC0 = 0x80 ↔ 0x80 ≤ n ∧ n < 0xC0) ∧
    (UInt8.ofNat n &&& 0xE0 = 0xC0 ↔ 0xC0 ≤ n ∧ n < 0xE0) ∧
    (UInt8.ofNat n &&& 0xF0 = 0xE0 ↔ 0xE0 ≤ n ∧ n < 0xF0) ∧
    (UInt8.ofNat n &&& ~~~0xC0).toNat = n % 2 ^ 6 ∧
    (UInt8.ofNat n &&& ~~~0xE0).toNat = n % 2 ^ 5 ∧
    (UInt8.ofNat n &&& ~~~0xF0).toNat = n % 2 ^ 4 := by
  decide +kernel

/-- The five forms, told apart by the value of the first byte. -/
theorem readLength_ofNat {v : Nat} (hv : v < 256) (stream : Bytes) :
    readLength (UInt8.ofNat v :: stream) =
      if v < 0x80 then .ok (v, stream)
      else if v < 0xC0 then readRest (v % 2 ^ 6) 1 stream
      else if v < 0xE0 then readRest (v % 2 ^ 5) 2 stream
      else if v < 0xF0 then readRest (v % 2 ^ 4) 3 stream
      else if v = 0xF0 then readRest 0 4 stream
      else .error ("routeros length byte " ++ String.ofList (Nat.toDigits 16 v)) := by
  obtain ⟨h1, h2, h3, h4, v2, v3, v4⟩ := masks_byte v hv
  have hval : (UInt8.ofNat v).toNat = v := UInt8.toNat_ofNat_of_lt' hv
  have h5 : UInt8.ofNat v = 0xF0 ↔ v = 0xF0 := by
    rw [← UInt8.toNat_inj, hval]
    rfl
  rw [readLength]
  simp only [h1, h2, h3, h4, h5, v2, v3, v4, hval]
  -- The masks name both ends of a range, of which the earlier branches have settled the lower one.
  by_cases c1 : v < 0x80
  · simp only [c1, if_true]
  · have d1 : 0x80 ≤ v := by omega
    simp only [c1, d1, if_false, true_and]
    by_cases c2 : v < 0xC0
    · simp only [c2, if_true]
    · have d2 : 0xC0 ≤ v := by omega
      simp only [c2, d2, if_false, true_and]
      by_cases c3 : v < 0xE0
      · simp only [c3, if_true]
      · have d3 : 0xE0 ≤ v := by omega
        simp only [c3, d3, if_false, true_and]

theorem bigEndian_concat (bytes : Bytes) (byte : UInt8) :
    bigEndian (bytes ++ [byte]) = bigEndian bytes * 256 + byte.toNat := by
  have hfold : bigEndian (bytes ++ [byte]) = (bigEndian bytes <<< 8) ||| byte.toNat := by
    rw [bigEndian, List.foldl_append, ← bigEndian]
    rfl
  rw [hfold, ← Nat.shiftLeft_add_eq_or_of_lt byte.toNat_lt, Nat.shiftLeft_eq]

def lowBytes : Nat → Nat → Bytes
  | 0, _ => []
  | k + 1, n => lowBytes k (n >>> 8) ++ [UInt8.ofNat n]

theorem length_lowBytes (k n : Nat) : (lowBytes k n).length = k := by
  induction k generalizing n with
  | zero => rfl
  | succ k ih => rw [lowBytes, List.length_append, ih, List.length_singleton]

theorem bigEndian_lowBytes (k n : Nat) : bigEndian (lowBytes k n) = n % 2 ^ (8 * k) := by
  induction k generalizing n with
  | zero => exact (Nat.mod_one n).symm
  | succ k ih =>
    have hpow : 2 ^ (8 * (k + 1)) = 2 ^ 8 * 2 ^ (8 * k) := by rw [Nat.mul_succ, Nat.pow_add, Nat.mul_comm]
    rw [lowBytes, bigEndian_concat, ih, UInt8.toNat_ofNat', Nat.shiftRight_eq_div_pow, hpow, Nat.mod_mul]
    omega

theorem readRest_lowBytes (high k n : Nat) (stream : Bytes) :
    readRest high k (lowBytes k n ++ stream) = .ok (high * 2 ^ (8 * k) + n % 2 ^ (8 * k), stream) := by
  have hlen := length_lowBytes k n
  have hfits : readExact k (lowBytes k n ++ stream) = .ok (lowBytes k n, stream) := by
    rw [readExact, if_pos (by rw [List.length_append]; omega), List.take_left' hlen, List.drop_left' hlen]
  have hlow : n % 2 ^ (8 * k) < 2 ^ (8 * k) := Nat.mod_lt n (Nat.two_pow_pos _)
  rw [readRest, hfits, ← Nat.shiftLeft_eq, Nat.shiftLeft_add_eq_or_of_lt hlow, ← bigEndian_lowBytes k n]
  rfl

variable {len : Nat} {stream rest : Bytes} {sentences : List (List Word)}

theorem readLength_form {k b n : Nat} (stream : Bytes)
    (hform : readLength (UInt8.ofNat (n / 2 ^ (8 * k)) :: (lowBytes k n ++ stream)) =
      readRest (n / 2 ^ (8 * k) % 2 ^ b) k (lowBytes k n ++ stream))
    (hlen : n % 2 ^ (8 * k + b) = len) :
    readLength (UInt8.ofNat (n >>> (8 * k)) :: (lowBytes k n ++ stream)) = .ok (len, stream) := by
  rw [Nat.shiftRight_eq_div_pow, hform, readRest_lowBytes, ← hlen, Nat.pow_add, Nat.mod_mul, Nat.mul_comm, Nat.add_comm]

theorem or_mark {k : Nat} (mark : Nat) (h : len < 2 ^ k) : len ||| 2 ^ k * mark = 2 ^ k * mark + len := by
  rw [Nat.two_pow_add_eq_or_of_lt h, Nat.or_comm]

/-- The reader takes the writer's lengths back, as long as four bytes can hold them. -/
theorem readLength_header (h : len < 2 ^ 28) (stream : Bytes) :
    readLength (header len ++ stream) = .ok (len, stream) := by
  rw [header]
  by_cases c1 : len < 0x80
  · rw [if_pos c1, List.singleton_append, readLength_ofNat (by omega), if_pos c1]
  by_cases c2 : len < 0x4000
  · have hor : len ||| 0x8000 = 0x8000 + len := or_mark (k := 15) 1 (by omega)
    rw [if_neg c1, if_pos c2, hor]
    apply readLength_form (k := 1) (b := 6) stream
    · rw [readLength_ofNat (by omega), if_neg (by omega), if_pos (by omega)]
    · omega
  by_cases c3 : len < 0x200000
  · have hor : len ||| 0xC00000 = 0xC00000 + len := or_mark (k := 22) 3 (by omega)
    rw [if_neg c1, if_neg c2, if_pos c3, hor]
    apply readLength_form (k := 2) (b := 5) stream
    · rw [readLength_ofNat (by omega), if_neg (by omega), if_neg (by omega), if_pos (by omega)]
    · omega
  · have hor : len ||| 0xE0000000 = 0xE0000000 + len := or_mark (k := 29) 7 (by omega)
    rw [if_neg c1, if_neg c2, if_neg c3, hor]
    apply readLength_form (k := 3) (b := 4) stream
    · rw [readLength_ofNat (by omega), if_neg (by omega), if_neg (by omega), if_neg (by omega), if_pos (by omega)]
    · omega

/-! ### What reading costs -/

theorem readExact_eq_ok {n : Nat} {data : Bytes} :
    readExact n stream = .ok (data, rest) ↔ data.length = n ∧ stream = data ++ rest := by
  rw [readExact]
  constructor
  · intro h
    split at h
    · cases h
      exact ⟨List.length_take_of_le (by assumption), (List.take_append_drop n stream).symm⟩
    · cases h
  · rintro ⟨rfl, rfl⟩
    rw [if_pos (by simp), List.take_left, List.drop_left]

def need (len : Nat) : Nat :=
  if len < 0x80 then 1 else if len < 0x4000 then 2 else if len < 0x200000 then 3 else if len < 2 ^ 28 then 4 else 5

theorem length_header (len : Nat) : (header len).length = min (need len) 4 := by
  unfold header need
  split_ifs <;> rfl

theorem bigEndian_lt (bytes : Bytes) : bigEndian bytes < 2 ^ (8 * bytes.length) := by
  induction bytes using List.reverseRecOn with
  | nil => exact Nat.one_pos
  | append_singleton bytes byte ih =>
    have hb : byte.toNat < 256 := byte.toNat_lt
    rw [bigEndian_concat, List.length_append, List.length_singleton, Nat.mul_add, Nat.pow_add]
    omega

/-- A length of `k` more bytes has eight bits for each of them, besides those of the first byte. -/
theorem readRest_eq_ok {high b k : Nat} (hhigh : high < 2 ^ b) (h : readRest high k stream = .ok (len, rest)) :
    len < 2 ^ (8 * k + b) ∧ stream.length = rest.length + k := by
  obtain ⟨⟨data, rest'⟩, hread, h⟩ := bind_eq_ok.mp h
  cases h
  obtain ⟨hlen, rfl⟩ := readExact_eq_ok.mp hread
  have hlow : bigEndian data < 2 ^ (8 * k) := hlen ▸ bigEndian_lt data
  constructor
  · rw [← Nat.shiftLeft_add_eq_or_of_lt hlow, Nat.shiftLeft_eq]
    calc high * 2 ^ (8 * k) + bigEndian data
        < high * 2 ^ (8 * k) + 2 ^ (8 * k) := Nat.add_lt_add_left hlow _
      _ = 2 ^ (8 * k) * (high + 1) := by rw [Nat.mul_succ, Nat.mul_comm]
      _ ≤ 2 ^ (8 * k) * 2 ^ b := Nat.mul_le_mul_left _ hhigh
      _ = 2 ^ (8 * k + b) := (Nat.pow_add 2 (8 * k) b).symm
  · rw [List.length_append]
    omega

theorem readLength_eq_ok (h : readLength stream = .ok (len, rest)) : rest.length + need len ≤ stream.length := by
  cases stream with
  | nil => cases h
  | cons c stream =>
    have hv : c.toNat < 256 := c.toNat_lt
    rw [← UInt8.ofNat_toNat (x := c), readLength_ofNat hv] at h
    rw [List.length_cons, need]
    split_ifs at h with c1 c2 c3 c4
    · cases h
      rw [if_pos c1]
    · obtain ⟨hlen, hrest⟩ := readRest_eq_ok (b := 6) (Nat.mod_lt _ (by decide)) h
      split_ifs <;> omega
    · obtain ⟨hlen, hrest⟩ := readRest_eq_ok (b := 5) (Nat.mod_lt _ (by decide)) h
      split_ifs <;> omega
    · obtain ⟨hlen, hrest⟩ := readRest_eq_ok (b := 4) (Nat.mod_lt _ (by decide)) h
      split_ifs <;> omega
    · obtain ⟨hlen, hrest⟩ := readRest_eq_ok (b := 0) (by decide) h
      split_ifs <;> omega

def cost (word : Bytes) : Nat := need word.length + word.length

theorem readWord_cost {word : Bytes} (h : readWord stream = .ok (word, rest)) :
    rest.length + cost word ≤ stream.length := by
  obtain ⟨⟨len, stream'⟩, hlen, h⟩ := bind_eq_ok.mp h
  obtain ⟨rfl, rfl⟩ := readExact_eq_ok.mp h
  have hneed := readLength_eq_ok hlen
  rw [List.length_append] at hneed
  rw [cost]
  omega

theorem readWords_cost {fuel : Nat} {words : List Bytes} (h : readWords fuel stream = .ok (words, rest)) :
    rest.length + (words.map cost).sum + 1 ≤ stream.length := by
  induction fuel generalizing stream words with
  | zero => cases h
  | succ fuel ih =>
    obtain ⟨⟨word, stream'⟩, hword, h⟩ := bind_eq_ok.mp h
    have hcost := readWord_cost hword
    change (if word = [] then _ else _) = _ at h
    by_cases hend : word = []
    · rw [if_pos hend] at h
      cases h
      rw [hend] at hcost
      exact hcost
    · rw [if_neg hend] at h
      obtain ⟨⟨words', rest'⟩, hwords, h⟩ := bind_eq_ok.mp h
      cases h
      have hrest := ih hwords
      rw [List.map_cons, List.sum_cons]
      omega

/-! ### Round trips -/

theorem readWord_encodeWord {word : Bytes} (h : word.length < 2 ^ 28) (stream : Bytes) :
    readWord (encodeWord word ++ stream) = .ok (word, stream) := by
  rw [encodeWord, List.append_assoc, readWord, readLength_header h]
  exact readExact_eq_ok.mpr ⟨rfl, rfl⟩

theorem length_encodeWord (word : Bytes) : (encodeWord word).length = min (need word.length) 4 + word.length := by
  rw [encodeWord, List.length_append, length_header]

theorem need_pos (len : Nat) : 0 < need len := by
  unfold need
  split_ifs <;> decide

theorem readWords_flatMap {words : List Bytes} (hne : ∀ word ∈ words, word ≠ [])
    (hlt : ∀ word ∈ words, word.length < 2 ^ 28) {fuel : Nat} (hfuel : words.length < fuel) (stream : Bytes) :
    readWords fuel (words.flatMap encodeWord ++ 0 :: stream) = .ok (words, stream) := by
  induction words generalizing fuel with
  | nil =>
    obtain ⟨fuel, rfl⟩ := Nat.exists_eq_add_one_of_ne_zero (Nat.ne_zero_of_lt hfuel)
    have hend : readWord (encodeWord [] ++ stream) = .ok ([], stream) := readWord_encodeWord (by decide) stream
    rw [List.flatMap_nil, List.nil_append, readWords]
    change (readWord (encodeWord [] ++ stream) >>= _) = _
    rw [hend]
    rfl
  | cons word words ih =>
    obtain ⟨fuel, rfl⟩ := Nat.exists_eq_add_one_of_ne_zero (Nat.ne_zero_of_lt hfuel)
    have hword := hne word List.mem_cons_self
    have hwords := ih (fun w hw => hne w (List.mem_cons_of_mem word hw))
      (fun w hw => hlt w (List.mem_cons_of_mem word hw)) (Nat.lt_of_succ_lt_succ hfuel)
    rw [List.flatMap_cons, List.append_assoc, readWords, readWord_encodeWord (hlt word List.mem_cons_self)]
    change (if word = [] then _ else _) = _
    rw [if_neg hword, hwords]
    rfl

theorem length_le_flatMap (words : List Bytes) : words.length ≤ (words.flatMap encodeWord).length := by
  induction words with
  | nil => exact Nat.le_refl 0
  | cons word words ih =>
    have hpos := need_pos word.length
    rw [List.flatMap_cons, List.length_append, length_encodeWord, List.length_cons]
    omega

theorem readSentence_sentence (lossy : Lossy) {words : List String} (hne : ∀ word ∈ words, word ≠ "")
    (hlt : ∀ word ∈ words, (asBytes word).length < 2 ^ 28) (stream : Bytes) :
    readSentence lossy (sentence words ++ stream) = .ok (words, stream) := by
  have hbytes : sentence words ++ stream = (words.map asBytes).flatMap encodeWord ++ 0 :: stream := by
    rw [sentence, List.flatMap_map, List.append_assoc]
    rfl
  have hfuel := length_le_flatMap (words.map asBytes)
  have hread : readWords (sentence words ++ stream).length (sentence words ++ stream) =
      .ok (words.map asBytes, stream) := by
    rw [hbytes]
    apply readWords_flatMap
    · intro word hmem
      obtain ⟨text, ht, rfl⟩ := List.mem_map.mp hmem
      exact mt asBytes_eq_nil.mp (hne text ht)
    · intro word hmem
      obtain ⟨text, ht, rfl⟩ := List.mem_map.mp hmem
      exact hlt text ht
    · rw [List.length_append, List.length_cons]
      omega
  have htexts : (words.map asBytes).map lossy.text = words := by
    rw [List.map_map]
    exact List.map_id'' lossy.text_asBytes words
  rw [readSentence, hread]
  change Except.ok ((words.map asBytes).map lossy.text, stream) = _
  rw [htexts]

noncomputable def strict : Lossy where
  text bytes := open Classical in if h : ∃ word, asBytes word = bytes then h.choose else ""
  text_asBytes word := by
    have h : ∃ word', asBytes word' = asBytes word := ⟨word, rfl⟩
    rw [dif_pos h]
    exact asBytes_injective h.choose_spec

theorem asBytes_strict {bytes : Bytes} (h : strict.text bytes ≠ "") : asBytes (strict.text bytes) = bytes := by
  by_cases hex : ∃ word, asBytes word = bytes
  · obtain ⟨word, rfl⟩ := hex
    rw [strict.text_asBytes]
  · exact absurd (dif_neg hex) h

theorem readSentence_cost {words : List String} (hne : ∀ word ∈ words, word ≠ "")
    (h : readSentence strict stream = .ok (words, rest)) :
    rest.length + ((words.map asBytes).map cost).sum + 1 ≤ stream.length := by
  obtain ⟨⟨bytes, rest'⟩, hread, h⟩ := bind_eq_ok.mp h
  cases h
  have hback : (bytes.map strict.text).map asBytes = bytes := by
    rw [List.map_map]
    nth_rewrite 2 [← List.map_id bytes]
    apply List.map_congr_left
    intro word hmem
    exact asBytes_strict (hne _ (List.mem_map_of_mem hmem))
  rw [hback]
  exact readWords_cost hread

/-! ### Sentences on the wire -/

/-- A word of a sentence: a text that is not empty, of fewer than `2 ^ 32` bytes. -/
structure Word where
  text : String
  ne_empty : text ≠ ""
  lt : (asBytes text).length < 2 ^ 32

def wire (sentences : List (List Word)) : Bytes := sentences.flatMap fun words => sentence (words.map Word.text)

/-- The sentences come back from what is written for them, and no byte is left, whatever the reader makes of bytes that
are no text. -/
def Survives (sentences : List (List Word)) : Prop :=
  ∀ lossy, readSentences lossy sentences.length (wire sentences) = .ok (sentences.map (·.map Word.text), [])

def Short (sentences : List (List Word)) : Prop :=
  ∀ words ∈ sentences, ∀ word ∈ words, (asBytes word.text).length < 2 ^ 28

theorem survives_of_short (h : Short sentences) : Survives sentences := by
  intro lossy
  induction sentences with
  | nil => rfl
  | cons words sentences ih =>
    have hhead : readSentence lossy (wire (words :: sentences)) = .ok (words.map Word.text, wire sentences) := by
      rw [wire, List.flatMap_cons, ← wire]
      apply readSentence_sentence
      · intro text hmem
        obtain ⟨word, -, rfl⟩ := List.mem_map.mp hmem
        exact word.ne_empty
      · intro text hmem
        obtain ⟨word, hword, rfl⟩ := List.mem_map.mp hmem
        exact h words List.mem_cons_self word hword
    have htail := ih fun ws hws => h ws (List.mem_cons_of_mem words hws)
    rw [List.length_cons, readSentences, hhead]
    change (readSentences lossy sentences.length (wire sentences) >>= _) = _
    rw [htail]
    rfl

def leastCost (sentences : List (List Word)) : Nat :=
  (sentences.map fun words => (words.map fun word => cost (asBytes word.text)).sum + 1).sum

theorem leastCost_le (h : readSentences strict sentences.length stream = .ok (sentences.map (·.map Word.text), rest)) :
    rest.length + leastCost sentences ≤ stream.length := by
  induction sentences generalizing stream with
  | nil =>
    cases h
    exact Nat.le_refl _
  | cons words sentences ih =>
    obtain ⟨⟨texts, stream'⟩, hhead, h⟩ := bind_eq_ok.mp h
    obtain ⟨⟨others, rest'⟩, htail, h⟩ := bind_eq_ok.mp h
    cases h
    have hwords := readSentence_cost (by
      intro text hmem
      obtain ⟨word, -, rfl⟩ := List.mem_map.mp hmem
      exact word.ne_empty) hhead
    rw [List.map_map, List.map_map] at hwords
    have hrest := ih htail
    rw [leastCost, List.map_cons, List.sum_cons, ← leastCost]
    change _ + (words.map fun word => cost (asBytes word.text)).sum + 1 ≤ _ at hwords
    omega

theorem length_wire (sentences : List (List Word)) :
    (wire sentences).length =
      (sentences.map fun words => (words.map fun word => (encodeWord (asBytes word.text)).length).sum + 1).sum := by
  rw [wire, List.length_flatMap]
  congr 1
  apply List.map_congr_left
  intro words _
  rw [sentence, List.length_append, List.length_flatMap, List.map_map]
  rfl

theorem length_encodeWord_le (word : Bytes) : (encodeWord word).length ≤ cost word := by
  rw [length_encodeWord, cost]
  omega

/-- The writer saves a byte where the fifth form is needed. -/
theorem length_encodeWord_lt {word : Bytes} (h : 2 ^ 28 ≤ word.length) : (encodeWord word).length < cost word := by
  have hneed : need word.length = 5 := by
    unfold need
    split_ifs <;> omega
  rw [length_encodeWord, cost, hneed]
  omega

theorem length_wire_lt (h : ¬ Short sentences) : (wire sentences).length < leastCost sentences := by
  simp only [Short, not_forall, Nat.not_lt] at h
  obtain ⟨words, hwords, word, hword, hlong⟩ := h
  have hle : ∀ ws : List Word, (ws.map fun w => (encodeWord (asBytes w.text)).length).sum ≤
      (ws.map fun w => cost (asBytes w.text)).sum := by
    intro ws
    exact List.sum_le_sum fun w _ => length_encodeWord_le (asBytes w.text)
  rw [length_wire, leastCost]
  apply List.sum_lt_sum
  · intro ws _
    exact Nat.succ_le_succ (hle ws)
  · refine ⟨words, hwords, Nat.succ_lt_succ ?_⟩
    apply List.sum_lt_sum
    · intro w _
      exact length_encodeWord_le (asBytes w.text)
    · exact ⟨word, hword, length_encodeWord_lt hlong⟩

theorem short_of_survives (h : Survives sentences) : Short sentences := by
  by_contra hlong
  have hcost := leastCost_le (h strict)
  have hlt := length_wire_lt hlong
  omega

/-- Sentences survive the wire exactly if the length of every word fits the four forms that the writer knows. -/
theorem sentences_survive_iff (sentences : List (List Word)) :
    Survives sentences ↔ ∀ words ∈ sentences, ∀ word ∈ words, (asBytes word.text).length < 2 ^ 28 :=
  ⟨short_of_survives, survives_of_short⟩

theorem length_asBytes_replicate (n : Nat) : (asBytes (String.ofList (List.replicate n 'a'))).length = n := by
  have hone : (String.utf8EncodeChar 'a').length = 1 := by decide
  rw [asBytes_ofList, List.length_flatMap, List.map_replicate, List.sum_replicate, hone]
  exact Nat.mul_one n

def letters (n : Nat) (hpos : 0 < n) (hlt : n < 2 ^ 32) : Word where
  text := String.ofList (List.replicate n 'a')
  ne_empty h := by
    have hlen := length_asBytes_replicate n
    rw [h] at hlen
    exact absurd hlen (Nat.ne_of_lt hpos)
  lt := by
    rw [length_asBytes_replicate]
    exact hlt

/-- The first length that needs the fifth form is written as the byte `0xF0` and three zeros, and the reader takes the
first letter of the word for the last byte of the length. -/
theorem long_word_lost : ¬ Survives [[letters (2 ^ 28) (by decide) (by decide)]] := by
  intro h
  have hlt := short_of_survives h _ List.mem_cons_self _ List.mem_cons_self
  rw [letters, length_asBytes_replicate] at hlt
  exact absurd hlt (Nat.lt_irrefl _)

end Kcore.Provisioning.RouterOs
