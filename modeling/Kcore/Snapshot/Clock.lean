import Kcore.Text
import Mathlib.Algebra.Order.BigOperators.Group.List
import Mathlib.Algebra.Order.Ring.Nat
import Mathlib.Data.List.Lex
import Mathlib.Data.String.Basic
import Mathlib.Order.Monotone.Basic

/-!
# Times as texts

The reconciler of the snapshot policies writes the time of a run as `YYYY-MM-DD HH:MM:SS` and reads it back when it
decides whether the next one is due. Both directions are computed by hand, in eras of 400 years that begin on the
first of March, so that a leap day is the last day of its year.

`Dated` says what a day has to do with its year, month and day, all counted from March; `dated_civil` says it of
`civil_from_days`, and both directions of the round trip and the order of the texts are read off it.
-/

namespace Kcore.Snapshot.Clock

/-! ### The source -/

def yearOfEra (doe : Nat) : Nat := (doe - doe / 1460 + doe / 36524 - doe / 146096) / 365

def civilFromDays (days : Int) : Int × Nat × Nat :=
  let z := days + 719468
  let era := z / 146097
  let doe := (z % 146097).toNat
  let yoe := yearOfEra doe
  let y := (yoe : Int) + era * 400
  let doy := doe - (365 * yoe + yoe / 4 - yoe / 100)
  let mp := (5 * doy + 2) / 153
  let d := doy - (153 * mp + 2) / 5 + 1
  let m := if mp < 10 then mp + 3 else mp - 9
  let y := if m ≤ 2 then y + 1 else y
  (y, m, d)

def daysFromCivil (y : Int) (m d : Nat) : Option Nat :=
  if ¬ (1 ≤ m ∧ m ≤ 12) ∨ ¬ (1 ≤ d ∧ d ≤ 31) then none
  else
    let y := if m ≤ 2 then y - 1 else y
    let era := y / 400
    let yoe := (y % 400).toNat
    let mp := if m > 2 then m - 3 else m + 9
    let doy := (153 * mp + 2) / 5 + d - 1
    let doe := yoe * 365 + yoe / 4 - yoe / 100 + doy
    let days := era * 146097 + doe - 719468
    if days < 0 then none else some days.toNat

/-- A number padded with zeros to a width, as `{n:0width}` prints it. -/
def zeroPad (width : Nat) (n : Int) : String :=
  let sign := if n < 0 then "-" else ""
  let digits := toString n.natAbs
  sign ++ String.ofList (List.replicate (width - sign.length - digits.length) '0') ++ digits

def nowSqlite (secs : Nat) : String :=
  let days := secs / 86400
  let tod := secs % 86400
  let (y, m, d) := civilFromDays days
  let h := tod / 3600
  let mi := tod % 3600 / 60
  let s := tod % 60
  zeroPad 4 y ++ "-" ++ zeroPad 2 m ++ "-" ++ zeroPad 2 d ++ " " ++ zeroPad 2 h ++ ":" ++ zeroPad 2 mi ++ ":" ++
    zeroPad 2 s

/-- What is left of a text behind its first `n` bytes, if a character ends there. -/
def dropBytes : Nat → List Char → Option (List Char)
  | 0, cs => some cs
  | _ + 1, [] => none
  | n + 1, c :: cs => if c.utf8Size ≤ n + 1 then dropBytes (n + 1 - c.utf8Size) cs else none

/-- The first `n` bytes of a text, if a character ends there. -/
def takeBytes : Nat → List Char → Option (List Char)
  | 0, _ => some []
  | _ + 1, [] => none
  | n + 1, c :: cs =>
    if c.utf8Size ≤ n + 1 then (takeBytes (n + 1 - c.utf8Size) cs).map (c :: ·) else none

def byteLen (s : String) : Nat := (s.toList.map Char.utf8Size).sum

def get (s : String) (a b : Nat) : Option String :=
  (dropBytes a s.toList).bind fun cs => (takeBytes (b - a) cs).map String.ofList

def parseI64 (s : String) : Option Int :=
  match stripPrefix s "-" with
  | some digits => if startsWith digits "+" then none else (parseUnsigned (2 ^ 63 + 1) digits).map fun n => -(n : Int)
  | none => (parseUnsigned (2 ^ 63) s).map fun n => (n : Int)

def parseSqliteTime (s : String) : Option Nat := do
  let s := trim s
  if byteLen s < 19 then none
  else
    let year ← (get s 0 4).bind parseI64
    let month ← (get s 5 7).bind (parseUnsigned 4294967296)
    let day ← (get s 8 10).bind (parseUnsigned 4294967296)
    let hour ← (get s 11 13).bind (parseUnsigned 4294967296)
    let min ← (get s 14 16).bind (parseUnsigned 4294967296)
    let sec ← (get s 17 19).bind (parseUnsigned 4294967296)
    let days ← daysFromCivil year month day
    some (days * 86400 + hour * 3600 + min * 60 + sec)

/-! ### The calendar -/

/-- The days before a year, counted from the first of March of the year 0. -/
def before (year : Nat) : Nat := 365 * year + year / 4 - year / 100 + year / 400

private theorem before_mono : Monotone before := by
  apply monotone_nat_of_le_succ
  intro year
  unfold before
  omega

private theorem yearOfEra_mono : Monotone yearOfEra := by
  apply monotone_nat_of_le_succ
  intro doe
  unfold yearOfEra
  apply Nat.div_le_div_right
  omega

private theorem yearOfEra_borders : ∀ year < 400,
    yearOfEra (before (year + 1) - 1) = year ∧ (year + 1 < 400 → yearOfEra (before (year + 1)) = year + 1) := by
  decide +kernel

/-- The year of a day is the one whose days it is among: at the borders it is, and in between it only grows. -/
private theorem yearOfEra_spec {doe : Nat} (h : doe < 146097) :
    yearOfEra doe < 400 ∧ before (yearOfEra doe) ≤ doe ∧ doe < before (yearOfEra doe + 1) := by
  have hlt : yearOfEra doe < 400 := by
    unfold yearOfEra
    omega
  refine ⟨hlt, ?_, ?_⟩
  · by_contra hlow
    obtain ⟨year, hyear⟩ : ∃ year, yearOfEra doe = year + 1 := by
      cases hy : yearOfEra doe with
      | zero =>
        rw [hy] at hlow
        exact absurd (Nat.zero_le doe) hlow
      | succ year => exact ⟨year, rfl⟩
    rw [hyear] at hlow
    have hle := yearOfEra_mono (show doe ≤ before (year + 1) - 1 by omega)
    rw [(yearOfEra_borders year (by omega)).1] at hle
    omega
  · by_contra hhigh
    by_cases hlast : yearOfEra doe + 1 < 400
    · have hle := yearOfEra_mono (show before (yearOfEra doe + 1) ≤ doe by omega)
      rw [(yearOfEra_borders (yearOfEra doe) hlt).2 hlast] at hle
      omega
    · have hend : yearOfEra doe + 1 = 400 := by omega
      rw [hend] at hhigh
      exact hhigh h

/-- A day is in a year, a month and at a day of it; year and month are counted from March. -/
structure Dated (days year mp d : Nat) : Prop where
  mp_le : mp ≤ 11
  d_pos : 1 ≤ d
  d_le : (153 * mp + 2) / 5 + d ≤ (153 * (mp + 1) + 2) / 5
  eq : days + 719468 = before year + (153 * mp + 2) / 5 + (d - 1)
  lt : days + 719468 < before (year + 1)

/-- No year has more than 366 days: a year of a leap day every 400 years misses one every 100 years. -/
private theorem before_succ_le (year : Nat) : before (year + 1) ≤ before year + 366 := by
  have hdvd : 400 ∣ year + 1 → 100 ∣ year + 1 := by omega
  have h4 : (year + 1) / 4 = year / 4 + if 4 ∣ year + 1 then 1 else 0 := Nat.succ_div
  have h100 : (year + 1) / 100 = year / 100 + if 100 ∣ year + 1 then 1 else 0 := Nat.succ_div
  have h400 : (year + 1) / 400 = year / 400 + if 400 ∣ year + 1 then 1 else 0 := Nat.succ_div
  unfold before
  rw [h4, h100, h400]
  split_ifs <;> omega

private theorem before_era (era : Nat) {yoe : Nat} (h : yoe ≤ 400) :
    before (yoe + era * 400) = era * 146097 + before yoe := by
  unfold before
  omega

def civilYear (year mp : Nat) : Nat := if mp < 10 then year else year + 1

def civilMonth (mp : Nat) : Nat := if mp < 10 then mp + 3 else mp - 9

private theorem civilMonth_spec (year : Nat) {mp : Nat} (h : mp ≤ 11) : 1 ≤ civilMonth mp ∧ civilMonth mp ≤ 12 ∧
    civilYear year mp * 12 + civilMonth mp = year * 12 + mp + 3 := by
  unfold civilMonth civilYear
  split <;> omega

private theorem dated_civil (days : Nat) : ∃ year mp d, Dated days year mp d ∧
    civilFromDays days = ((civilYear year mp : Int), civilMonth mp, d) := by
  have hera : ((days : Int) + 719468) / 146097 = ((days + 719468) / 146097 : Nat) := by omega
  have hdoe : (((days : Int) + 719468) % 146097).toNat = (days + 719468) % 146097 := by omega
  generalize hE : (days + 719468) / 146097 = era at hera
  generalize hD : (days + 719468) % 146097 = doe at hdoe
  obtain ⟨hyoe, hlow, hhigh⟩ := yearOfEra_spec (show doe < 146097 by omega)
  generalize hY : yearOfEra doe = yoe at hyoe hlow hhigh
  have hbefore : before yoe = 365 * yoe + yoe / 4 - yoe / 100 := by
    unfold before
    omega
  obtain ⟨doy, rfl⟩ := Nat.exists_eq_add_of_le hlow
  have hdoy : doy ≤ 365 := by
    have hlen := before_succ_le yoe
    omega
  have hyear := before_era era (Nat.le_of_lt hyoe)
  have hnext := before_era era (show yoe + 1 ≤ 400 from hyoe)
  refine ⟨yoe + era * 400, (5 * doy + 2) / 153, doy - (153 * ((5 * doy + 2) / 153) + 2) / 5 + 1, ?_, ?_⟩
  · exact {
      mp_le := by omega
      d_pos := by omega
      d_le := by omega
      eq := by omega
      lt := by
        rw [Nat.add_right_comm, hnext]
        omega }
  · have hsub : before yoe + doy - (365 * yoe + yoe / 4 - yoe / 100) = doy := by omega
    simp only [civilFromDays, hera, hdoe, hY, hsub, civilYear, civilMonth]
    by_cases hmp : (5 * doy + 2) / 153 < 10
    · rw [if_pos hmp, if_neg (by omega), if_pos hmp]
      push_cast
      rfl
    · rw [if_neg hmp, if_pos (by omega), if_neg hmp]
      push_cast
      rfl

private theorem days_eq {days year mp d : Nat} (h : Dated days year mp d) :
    (year : Int) / 400 * 146097 + ((((year : Int) % 400).toNat * 365 + ((year : Int) % 400).toNat / 4 -
      ((year : Int) % 400).toNat / 100 + ((153 * mp + 2) / 5 + d - 1) : Nat) : Int) - 719468 = days := by
  have hyoe : ((year : Int) % 400).toNat = year % 400 := by omega
  have hyear : (year : Int) / 400 = ((year / 400 : Nat) : Int) := by omega
  have hera := before_era (year / 400) (show year % 400 ≤ 400 by omega)
  have hsplit : year % 400 + year / 400 * 400 = year := by omega
  have hbefore : before (year % 400) = year % 400 * 365 + year % 400 / 4 - year % 400 / 100 := by
    unfold before
    omega
  rw [hsplit] at hera
  rw [hyoe, hyear, ← hbefore]
  have heq := h.eq
  have hd := h.d_pos
  generalize before (year % 400) = first at hera ⊢
  generalize year / 400 = era at hera ⊢
  generalize (153 * mp + 2) / 5 = start at heq ⊢
  omega

private theorem daysFromCivil_civil {days year mp d : Nat} (h : Dated days year mp d) :
    daysFromCivil (civilYear year mp) (civilMonth mp) d = some days := by
  have hdays := days_eq h
  have hmp := h.mp_le
  have hd : 1 ≤ d ∧ d ≤ 31 := by
    have hpos := h.d_pos
    have hle := h.d_le
    omega
  unfold civilYear civilMonth
  by_cases hearly : mp < 10
  · have hmonth : 1 ≤ mp + 3 ∧ mp + 3 ≤ 12 := by omega
    simp only [if_pos hearly, daysFromCivil]
    rw [if_neg (by simp only [hmonth, hd, and_self, not_true, or_self, not_false_iff]),
      if_neg (by omega : ¬ mp + 3 ≤ 2), if_pos (by omega : mp + 3 > 2), Nat.add_sub_cancel, hdays,
      if_neg (Int.not_lt.mpr (Int.natCast_nonneg days)), Int.toNat_natCast]
  · have hmonth : 1 ≤ mp - 9 ∧ mp - 9 ≤ 12 := by omega
    have hback : mp - 9 + 9 = mp := by omega
    have hyear : ((year + 1 : Nat) : Int) - 1 = year := by omega
    simp only [if_neg hearly, daysFromCivil]
    rw [if_neg (by simp only [hmonth, hd, and_self, not_true, or_self, not_false_iff]),
      if_pos (by omega : mp - 9 ≤ 2), if_neg (by omega : ¬ mp - 9 > 2), hyear, hback, hdays,
      if_neg (Int.not_lt.mpr (Int.natCast_nonneg days)), Int.toNat_natCast]

private theorem dated_lt {days days' year mp d year' mp' d' : Nat} (h : Dated days year mp d)
    (h' : Dated days' year' mp' d') (hlt : days < days') :
    year * 12 + mp < year' * 12 + mp' ∨ year = year' ∧ mp = mp' ∧ d < d' := by
  have hmp := h.mp_le
  have hmp' := h'.mp_le
  rcases Nat.lt_trichotomy year year' with hy | rfl | hy
  · omega
  · rcases Nat.lt_trichotomy mp mp' with hm | rfl | hm
    · omega
    · have heq := h.eq
      have heq' := h'.eq
      have hd := h.d_pos
      omega
    · have hle := h'.d_le
      have heq := h.eq
      have heq' := h'.eq
      have hstart : (153 * (mp' + 1) + 2) / 5 ≤ (153 * mp + 2) / 5 := by omega
      have hd := h'.d_pos
      omega
  · have hnext := before_mono (show year' + 1 ≤ year from hy)
    have heq := h.eq
    have hend := h'.lt
    omega

/-! ### Numbers of a fixed width -/

def fixed : Nat → Nat → List Char
  | 0, _ => []
  | k + 1, n => fixed k (n / 10) ++ [Nat.digitChar (n % 10)]

private theorem length_fixed (k n : Nat) : (fixed k n).length = k := by
  induction k generalizing n with
  | zero => rfl
  | succ k ih => rw [fixed, List.length_append, ih, List.length_singleton]

private theorem fixed_zero (k : Nat) : fixed k 0 = List.replicate k '0' := by
  induction k with
  | zero => rfl
  | succ k ih =>
    rw [fixed, Nat.zero_div, ih, List.replicate_succ']
    rfl

private theorem replicate_toDigits {k n : Nat} (h : n < 10 ^ (k + 1)) :
    List.replicate (k + 1 - (Nat.toDigits 10 n).length) '0' ++ Nat.toDigits 10 n = fixed (k + 1) n := by
  induction k generalizing n with
  | zero =>
    have hn : n < 10 := h
    rw [Nat.toDigits_of_lt_base hn, fixed, fixed, Nat.mod_eq_of_lt hn]
    rfl
  | succ k ih =>
    by_cases hn : n < 10
    · rw [Nat.toDigits_of_lt_base hn, fixed, Nat.div_eq_of_lt hn, Nat.mod_eq_of_lt hn, fixed_zero]
      rfl
    · have hdiv : n / 10 < 10 ^ (k + 1) := by
        rw [Nat.pow_succ] at h
        exact Nat.div_lt_of_lt_mul (by omega)
      rw [Nat.toDigits_eq_if (by decide), if_neg hn, fixed, ← ih hdiv, List.length_append, List.length_singleton,
        Nat.add_sub_add_right, List.append_assoc]

private theorem toList_zeroPad {k n : Nat} (h : n < 10 ^ (k + 1)) : (zeroPad (k + 1) n).toList = fixed (k + 1) n := by
  have hsign : ¬ (n : Int) < 0 := Int.not_lt.mpr (Int.natCast_nonneg n)
  rw [← replicate_toDigits h, zeroPad]
  simp only [if_neg hsign, Int.natAbs_natCast, Nat.toString_eq_ofList_toDigits]
  simp

private theorem digitChar_facts : ∀ n < 10, (Nat.digitChar n).isDigit = true ∧ (Nat.digitChar n).utf8Size = 1 ∧
    (Nat.digitChar n).toNat - '0'.toNat = n ∧ ∀ m < n, Nat.digitChar m < Nat.digitChar n := by
  decide

private theorem forall_mem_fixed {P : Char → Prop} (h : ∀ n < 10, P (Nat.digitChar n)) (k n : Nat) :
    ∀ c ∈ fixed k n, P c := by
  induction k generalizing n with
  | zero => exact fun c hc => absurd hc List.not_mem_nil
  | succ k ih =>
    intro c hc
    rcases List.mem_append.mp hc with hc | hc
    · exact ih _ c hc
    · rw [List.mem_singleton.mp hc]
      exact h _ (Nat.mod_lt n (by decide))

private theorem foldl_fixed {k n : Nat} (h : n < 10 ^ k) :
    (fixed k n).foldl (fun n c => n * 10 + (c.toNat - '0'.toNat)) 0 = n := by
  induction k generalizing n with
  | zero =>
    have hn : n = 0 := Nat.lt_one_iff.mp h
    rw [hn]
    rfl
  | succ k ih =>
    have hdiv : n / 10 < 10 ^ k := by
      rw [Nat.pow_succ] at h
      exact Nat.div_lt_of_lt_mul (by omega)
    rw [fixed, List.foldl_append, ih hdiv, List.foldl_cons, List.foldl_nil,
      (digitChar_facts _ (Nat.mod_lt n (by decide))).2.2.1]
    omega

private theorem stripPrefix_fixed {sign : String} {c : Char} (hsign : sign.toList = [c]) (hc : c.isDigit = false)
    (k n : Nat) : stripPrefix (String.ofList (fixed k n)) sign = none := by
  cases h : stripPrefix (String.ofList (fixed k n)) sign with
  | none => rfl
  | some rest =>
    have hchars := congrArg String.toList (stripPrefix_eq_some.mp h)
    rw [String.toList_ofList, String.toList_append, hsign] at hchars
    have hdigit := forall_mem_fixed (P := fun c => c.isDigit = true) (fun n hn => (digitChar_facts n hn).1) k n c
      (by rw [hchars]; exact List.mem_cons_self)
    rw [hc] at hdigit
    exact absurd hdigit Bool.false_ne_true

private theorem parseUnsigned_fixed {k n limit : Nat} (h : n < 10 ^ (k + 1)) (hlimit : 10 ^ (k + 1) ≤ limit) :
    parseUnsigned limit (String.ofList (fixed (k + 1) n)) = some n := by
  have hplus : stripPrefix (String.ofList (fixed (k + 1) n)) "+" = none :=
    stripPrefix_fixed rfl (by decide) (k + 1) n
  have hne : String.ofList (fixed (k + 1) n) ≠ "" := by
    intro he
    have hlen := congrArg (fun s => s.toList.length) he
    simp only [String.toList_ofList, length_fixed] at hlen
    exact absurd hlen (Nat.succ_ne_zero k)
  have hdigits : ((fixed (k + 1) n).all Char.isDigit) = true :=
    List.all_eq_true.mpr (forall_mem_fixed (fun n hn => (digitChar_facts n hn).1) (k + 1) n)
  unfold parseUnsigned
  rw [hplus]
  dsimp only [Option.getD_none]
  rw [String.toList_ofList, if_pos ⟨hne, hdigits⟩, foldl_fixed h, if_pos (Nat.lt_of_lt_of_le h hlimit)]

private theorem parseI64_fixed {n : Nat} (h : n < 10 ^ 4) : parseI64 (String.ofList (fixed 4 n)) = some (n : Int) := by
  have hminus : stripPrefix (String.ofList (fixed 4 n)) "-" = none := stripPrefix_fixed rfl (by decide) 4 n
  rw [parseI64, hminus]
  dsimp only
  rw [parseUnsigned_fixed h (by decide)]
  rfl

/-- A field decides the order of two texts, or leaves it to what follows. -/
private theorem fixed_lt {k a b : Nat} (hb : b < 10 ^ k) {rest rest' : List Char} (h : a < b ∨ a = b ∧ rest < rest') :
    fixed k a ++ rest < fixed k b ++ rest' := by
  induction k generalizing a b rest rest' with
  | zero =>
    have hb0 : b = 0 := Nat.lt_one_iff.mp hb
    rcases h with h | ⟨-, h⟩
    · omega
    · exact h
  | succ k ih =>
    have hdiv : b / 10 < 10 ^ k := by
      rw [Nat.pow_succ] at hb
      exact Nat.div_lt_of_lt_mul (by omega)
    rw [fixed, fixed, List.append_assoc, List.append_assoc]
    apply ih hdiv
    rcases h with h | ⟨rfl, h⟩
    · by_cases hlow : a / 10 = b / 10
      · right
        refine ⟨hlow, List.Lex.rel ?_⟩
        exact (digitChar_facts _ (Nat.mod_lt b (by decide))).2.2.2 _ (by omega)
      · left
        omega
    · right
      exact ⟨rfl, List.Lex.cons h⟩

/-! ### Slices -/

private theorem dropBytes_append {l : List Char} (h : ∀ c ∈ l, c.utf8Size = 1) (rest : List Char) :
    dropBytes l.length (l ++ rest) = some rest := by
  induction l with
  | nil => exact dropBytes.eq_1 rest
  | cons c l ih =>
    have hc := h c List.mem_cons_self
    rw [List.length_cons, List.cons_append, dropBytes, hc, if_pos (Nat.le_add_left 1 _), Nat.add_sub_cancel]
    exact ih fun d hd => h d (List.mem_cons_of_mem c hd)

private theorem takeBytes_append {l : List Char} (h : ∀ c ∈ l, c.utf8Size = 1) (rest : List Char) :
    takeBytes l.length (l ++ rest) = some l := by
  induction l with
  | nil => exact takeBytes.eq_1 rest
  | cons c l ih =>
    have hc := h c List.mem_cons_self
    have hl := ih fun d hd => h d (List.mem_cons_of_mem c hd)
    rw [List.length_cons, List.cons_append, takeBytes, hc, if_pos (Nat.le_add_left 1 _), Nat.add_sub_cancel, hl]
    rfl

private theorem get_ascii {s : String} {a b : Nat} (hascii : ∀ c ∈ s.toList, c.utf8Size = 1) (hab : a ≤ b)
    (hb : b ≤ s.toList.length) : get s a b = some (String.ofList ((s.toList.drop a).take (b - a))) := by
  have hpre := dropBytes_append (l := s.toList.take a) (fun c hc => hascii c (List.mem_of_mem_take hc))
    (s.toList.drop a)
  have hmid := takeBytes_append (fun c hc => hascii c (List.mem_of_mem_drop (List.mem_of_mem_take hc)))
    (l := (s.toList.drop a).take (b - a)) ((s.toList.drop a).drop (b - a))
  rw [List.take_append_drop, List.length_take_of_le (by omega)] at hpre
  rw [List.take_append_drop, List.length_take_of_le (by rw [List.length_drop]; omega)] at hmid
  rw [get, hpre, Option.bind_some, hmid]
  rfl

/-! ### The texts -/

def line (y m d tod : Nat) : List Char :=
  fixed 4 y ++ '-' :: (fixed 2 m ++ '-' :: (fixed 2 d ++ ' ' ::
    (fixed 2 (tod / 3600) ++ ':' :: (fixed 2 (tod % 3600 / 60) ++ ':' :: fixed 2 (tod % 60)))))

/-- A time is written as so many years, months, days and seconds of a day. -/
structure Written (secs y m d tod : Nat) : Prop where
  tod_lt : tod < 86400
  y_lt : y < 10 ^ 4
  m_lt : m < 10 ^ 2
  d_lt : d < 10 ^ 2
  civil : civilFromDays (secs / 86400 : Nat) = ((y : Int), m, d)
  text : (nowSqlite secs).toList = line y m d tod

private theorem written_civil {secs : Nat} (h : (civilFromDays (secs / 86400 : Nat)).1 ≤ 9999) :
    ∃ year mp d, Dated (secs / 86400) year mp d ∧
      Written secs (civilYear year mp) (civilMonth mp) d (secs % 86400) := by
  obtain ⟨year, mp, d, hdated, hcivil⟩ := dated_civil (secs / 86400)
  refine ⟨year, mp, d, hdated, ?_⟩
  rw [hcivil] at h
  have hmonth := civilMonth_spec year hdated.mp_le
  have htod : secs % 86400 < 86400 := Nat.mod_lt secs (by decide)
  have hy : civilYear year mp < 10 ^ 4 := by
    dsimp only at h
    omega
  have hm : civilMonth mp < 10 ^ 2 := by omega
  have hd : d < 10 ^ 2 := by
    have hle := hdated.d_le
    omega
  refine ⟨htod, hy, hm, hd, hcivil, ?_⟩
  rw [nowSqlite, hcivil]
  dsimp only
  generalize secs % 86400 = tod at htod ⊢
  have hh : tod / 3600 < 10 ^ 2 := by omega
  have hmi : tod % 3600 / 60 < 10 ^ 2 := by omega
  have hs : tod % 60 < 10 ^ 2 := by omega
  simp only [String.toList_append, toList_zeroPad hy, toList_zeroPad hm, toList_zeroPad hd, toList_zeroPad hh,
    toList_zeroPad hmi, toList_zeroPad hs, List.append_assoc]
  rfl

private theorem utf8Size_line (y m d tod : Nat) : ∀ c ∈ line y m d tod, c.utf8Size = 1 := by
  have hdigits : ∀ k n, ∀ c ∈ fixed k n, c.utf8Size = 1 := forall_mem_fixed fun n hn => (digitChar_facts n hn).2.1
  intro c hc
  simp only [line, List.mem_append, List.mem_cons] at hc
  rcases hc with h | rfl | h | rfl | h | rfl | h | rfl | h | rfl | h
  all_goals first
    | exact hdigits _ _ c h
    | rfl

private theorem trim_line {s : String} {y m d tod : Nat} (hs : s.toList = line y m d tod) : trim s = s := by
  have hdigit : ∀ n < 10, isWhitespace (Nat.digitChar n) = false := by decide
  apply trim_of_ends
  · rw [hs]
    simp only [line, fixed, List.nil_append, List.cons_append, List.head?_cons, Option.mem_some_iff]
    rintro c rfl
    exact hdigit _ (Nat.mod_lt _ (by decide))
  · rw [hs]
    simp only [line, fixed, List.nil_append, List.cons_append, List.getLast?_cons_cons, List.getLast?_singleton,
      Option.mem_some_iff]
    rintro c rfl
    exact hdigit _ (Nat.mod_lt _ (by decide))

private theorem parseSqliteTime_line {s : String} {y m d tod days : Nat} (hs : s.toList = line y m d tod)
    (hy : y < 10 ^ 4) (hm : m < 10 ^ 2) (hd : d < 10 ^ 2) (htod : tod < 86400)
    (hdays : daysFromCivil y m d = some days) : parseSqliteTime s = some (days * 86400 + tod) := by
  have hascii : ∀ c ∈ s.toList, c.utf8Size = 1 := by
    rw [hs]
    exact utf8Size_line y m d tod
  have hlen : s.toList.length = 19 := by
    rw [hs]
    simp [line, length_fixed]
  have hsize : ¬ byteLen s < 19 := by
    have hle := List.length_le_sum_of_one_le (s.toList.map Char.utf8Size) (by
      intro n hn
      obtain ⟨c, -, rfl⟩ := List.mem_map.mp hn
      exact c.utf8Size_pos)
    rw [List.length_map, hlen] at hle
    exact Nat.not_lt.mpr hle
  have hget : ∀ a b, a ≤ b → b ≤ 19 → get s a b = some (String.ofList (((line y m d tod).drop a).take (b - a))) := by
    intro a b hab hb
    rw [get_ascii hascii hab (hlen ▸ hb), hs]
  have g1 : get s 0 4 = some (String.ofList (fixed 4 y)) := hget 0 4 (by decide) (by decide)
  have g2 : get s 5 7 = some (String.ofList (fixed 2 m)) := hget 5 7 (by decide) (by decide)
  have g3 : get s 8 10 = some (String.ofList (fixed 2 d)) := hget 8 10 (by decide) (by decide)
  have g4 : get s 11 13 = some (String.ofList (fixed 2 (tod / 3600))) := hget 11 13 (by decide) (by decide)
  have g5 : get s 14 16 = some (String.ofList (fixed 2 (tod % 3600 / 60))) := hget 14 16 (by decide) (by decide)
  have g6 : get s 17 19 = some (String.ofList (fixed 2 (tod % 60))) := hget 17 19 (by decide) (by decide)
  have hread : ∀ n < 10 ^ 2, parseUnsigned 4294967296 (String.ofList (fixed 2 n)) = some n :=
    fun n hn => parseUnsigned_fixed hn (by decide)
  simp only [parseSqliteTime, trim_line hs, if_neg hsize, g1, g2, g3, g4, g5, g6, Option.bind_some, parseI64_fixed hy,
    hread m hm, hread d hd, hread (tod / 3600) (by omega), hread (tod % 3600 / 60) (by omega),
    hread (tod % 60) (by omega), hdays, Option.bind_eq_bind]
  have hsum : tod / 3600 * 3600 + tod % 3600 / 60 * 60 + tod % 60 = tod := by omega
  rw [Nat.add_assoc, Nat.add_assoc, ← Nat.add_assoc (tod / 3600 * 3600), hsum]

private theorem parseSqliteTime_nowSqlite {secs : Nat} (h : (civilFromDays (secs / 86400 : Nat)).1 ≤ 9999) :
    parseSqliteTime (nowSqlite secs) = some secs := by
  obtain ⟨year, mp, d, hdated, hw⟩ := written_civil h
  have hparse := parseSqliteTime_line hw.text hw.y_lt hw.m_lt hw.d_lt hw.tod_lt (daysFromCivil_civil hdated)
  have hsum : secs / 86400 * 86400 + secs % 86400 = secs := by omega
  rw [hparse, hsum]

private theorem nowSqlite_lt {s t : Nat} (hs : (civilFromDays (s / 86400 : Nat)).1 ≤ 9999)
    (ht : (civilFromDays (t / 86400 : Nat)).1 ≤ 9999) (hst : s < t) : nowSqlite s < nowSqlite t := by
  obtain ⟨year, mp, d, hdated, hw⟩ := written_civil hs
  obtain ⟨year', mp', d', hdated', hw'⟩ := written_civil ht
  have hmonth := civilMonth_spec year hdated.mp_le
  have hmonth' := civilMonth_spec year' hdated'.mp_le
  have htod := hw.tod_lt
  have htod' := hw'.tod_lt
  rw [String.lt_iff_toList_lt, hw.text, hw'.text, line, line]
  -- The first field that differs is the first one that is smaller.
  have hfields : civilYear year mp < civilYear year' mp' ∨ civilYear year mp = civilYear year' mp' ∧
      (civilMonth mp < civilMonth mp' ∨ civilMonth mp = civilMonth mp' ∧
        (d < d' ∨ d = d' ∧ s % 86400 < t % 86400)) := by
    by_cases hday : s / 86400 = t / 86400
    · have hsame := hw.civil
      rw [hday, hw'.civil] at hsame
      simp only [Prod.mk.injEq, Nat.cast_inj] at hsame
      omega
    · have hlt := dated_lt hdated hdated' (by omega)
      omega
  have htime : ∀ {a b : Nat}, a < b → b < 86400 → a / 3600 < b / 3600 ∨ a / 3600 = b / 3600 ∧
      (a % 3600 / 60 < b % 3600 / 60 ∨ a % 3600 / 60 = b % 3600 / 60 ∧ a % 60 < b % 60) := by omega
  apply fixed_lt hw'.y_lt
  refine hfields.imp_right fun ⟨hy, h⟩ => ⟨hy, List.Lex.cons (fixed_lt hw'.m_lt ?_)⟩
  refine h.imp_right fun ⟨hm, h⟩ => ⟨hm, List.Lex.cons (fixed_lt hw'.d_lt ?_)⟩
  refine h.imp_right fun ⟨hd, h⟩ => ⟨hd, List.Lex.cons (fixed_lt (by omega) ?_)⟩
  refine (htime h htod').imp_right fun ⟨hh, h⟩ => ⟨hh, List.Lex.cons (fixed_lt (by omega) ?_)⟩
  refine h.imp_right fun ⟨hmi, h⟩ => ⟨hmi, List.Lex.cons ?_⟩
  have hlast : fixed 2 (s % 86400 % 60) ++ [] < fixed 2 (t % 86400 % 60) ++ [] := fixed_lt (by omega) (Or.inl h)
  rw [List.append_nil, List.append_nil] at hlast
  exact hlast

/-- The day 2932896 is the last one of the year 9999. -/
private theorem civil_year_le {s : Nat} (h : s ≤ 253402300799) : (civilFromDays (s / 86400 : Nat)).1 ≤ 9999 := by
  have hlast : civilFromDays (2932896 : Nat) = (9999, 12, 31) := by decide
  have hdays : s / 86400 ≤ 2932896 := by omega
  rcases Nat.lt_or_eq_of_le hdays with hlt | heq
  · obtain ⟨year, mp, d, hdated, hcivil⟩ := dated_civil (s / 86400)
    obtain ⟨year', mp', d', hdated', hcivil'⟩ := dated_civil 2932896
    have hmonth := civilMonth_spec year hdated.mp_le
    have hmonth' := civilMonth_spec year' hdated'.mp_le
    have hbefore := dated_lt hdated hdated' hlt
    rw [hlast] at hcivil'
    simp only [Prod.mk.injEq] at hcivil'
    rw [hcivil]
    dsimp only
    omega
  · rw [heq, hlast]

/-- For all times up to the end of the year 9999, reading undoes writing, and the texts are in the order of the
times. -/
theorem calendar_round_trip (s t : Nat) (hs : s ≤ 253402300799) (ht : t ≤ 253402300799) :
    parseSqliteTime (nowSqlite s) = some s ∧ (nowSqlite s < nowSqlite t ↔ s < t) := by
  have hys := civil_year_le hs
  have hyt := civil_year_le ht
  refine ⟨parseSqliteTime_nowSqlite hys, ?_, nowSqlite_lt hys hyt⟩
  intro hlt
  by_contra hle
  rcases Nat.lt_or_eq_of_le (Nat.le_of_not_lt hle) with hgt | rfl
  · exact lt_asymm hlt (nowSqlite_lt hyt hys hgt)
  · exact lt_irrefl _ hlt

/-- The last second of the year 9999 and the one before the leap day of the year 2000. -/
theorem last_second_read_back :
    parseSqliteTime (nowSqlite 253402300799) = some 253402300799 ∧
      (nowSqlite 253402300799 < nowSqlite 951782399 ↔ 253402300799 < 951782399) :=
  calendar_round_trip 253402300799 951782399 (Nat.le_refl _) (by decide)

end Kcore.Snapshot.Clock
