import Mathlib.Data.List.Perm.Basic
import Mathlib.Logic.Relation
import Mathlib.Order.Lattice

/-!
# Placing one after the other

Elements are placed one by one. An element is ready if it names nothing that is still to be placed, itself included;
the least ready element is placed next, or the first of all if none is ready. In the right order an element waits for
the others it names and not for itself. If the names lead to no cycle, the order is right whenever every element that
names itself meets `SettledAt` (`right_order`), and it is right for a key that puts an element and what it waits for
before all others only if the element meets `SettledAt` (`settledAt_of_right`).
-/

namespace Greedy

variable {α κ : Type} [LinearOrder κ] (names : α → α → Bool) (key : α → κ)

/-! ### The loop -/

def ready (pending : List α) (x : α) : Bool := !pending.any (names x)

/-- The first of the least elements. -/
def least : List α → Option α
  | [] => none
  | x :: xs => some (xs.foldl (fun best y => if key y < key best then y else best) x)

theorem least_spec {key : α → κ} {l : List α} {m : α} (h : least key l = some m) : m ∈ l ∧ ∀ y ∈ l, key m ≤ key y := by
  have hfold : ∀ (xs : List α) (best : α),
      xs.foldl (fun best y => if key y < key best then y else best) best ∈ best :: xs ∧
      ∀ y ∈ best :: xs, key (xs.foldl (fun best y => if key y < key best then y else best) best) ≤ key y := by
    intro xs
    induction xs with
    | nil => simp
    | cons a xs ih =>
      intro best
      rw [List.foldl_cons]
      by_cases hlt : key a < key best
      · rw [if_pos hlt]
        obtain ⟨hmem, hle⟩ := ih a
        refine ⟨List.mem_cons_of_mem _ hmem, ?_⟩
        intro y hy
        rcases List.mem_cons.mp hy with rfl | hy
        · exact le_trans (hle a List.mem_cons_self) (le_of_lt hlt)
        · exact hle y hy
      · rw [if_neg hlt]
        obtain ⟨hmem, hle⟩ := ih best
        have hbest := hle best List.mem_cons_self
        simp only [List.mem_cons] at hmem hle ⊢
        refine ⟨by tauto, ?_⟩
        rintro y (rfl | rfl | hy)
        · exact hbest
        · exact le_trans hbest (not_lt.mp hlt)
        · exact hle y (Or.inr hy)
  cases l with
  | nil => cases h
  | cons x xs =>
    obtain rfl : _ = m := by simpa [least] using h
    exact hfold xs x

def pick (pending : List α) : Option α :=
  if (pending.filter (ready names pending)).isEmpty then pending.head?
  else least key (pending.filter (ready names pending))

/-- The next element is ready and least, or none is ready and it is the first. -/
theorem pick_cases {names : α → α → Bool} {key : α → κ} {pending : List α} {x : α}
    (h : pick names key pending = some x) :
    (x ∈ pending ∧ (∀ y ∈ pending, names x y = false) ∧
      ∀ z ∈ pending, (∀ y ∈ pending, names z y = false) → key x ≤ key z) ∨
    ((∀ z ∈ pending, ∃ y ∈ pending, names z y = true) ∧ pending.head? = some x) := by
  unfold pick at h
  split at h
  · rename_i hnone
    refine Or.inr ⟨?_, h⟩
    simpa [ready] using hnone
  · obtain ⟨hmem, hle⟩ := least_spec h
    simp only [List.mem_filter, ready, Bool.not_eq_true', List.any_eq_false, Bool.not_eq_true] at hmem hle
    exact Or.inl ⟨hmem.1, hmem.2, fun z hz hr => hle z ⟨hz, hr⟩⟩

theorem exists_pick {pending : List α} (h : pending ≠ []) : ∃ x ∈ pending, pick names key pending = some x := by
  have hsome : ∃ x, pick names key pending = some x := by
    obtain ⟨a, rest, rfl⟩ := List.exists_cons_of_ne_nil h
    unfold pick
    split
    · exact ⟨a, rfl⟩
    · rename_i hne
      cases hf : (a :: rest).filter (ready names (a :: rest)) with
      | nil => simp [hf] at hne
      | cons b bs => exact ⟨_, rfl⟩
  obtain ⟨x, hx⟩ := hsome
  refine ⟨x, ?_, hx⟩
  rcases pick_cases hx with ⟨hmem, -, -⟩ | ⟨-, hhead⟩
  · exact hmem
  · exact List.mem_of_head? hhead

variable [DecidableEq α]

def order : Nat → List α → List α
  | 0, _ => []
  | n + 1, pending =>
    match pick names key pending with
    | none => []
    | some x => x :: order n (pending.erase x)

/-! ### The right order -/

/-- Nothing else that is still to be placed is named. -/
def Free (pending : List α) (x : α) : Prop := ∀ y ∈ pending.erase x, names x y = false

/-- Each element is free at its place, and least among those that are. -/
def Right : List α → Prop
  | [] => True
  | x :: rest =>
    Free names (x :: rest) x ∧ (∀ z ∈ x :: rest, Free names (x :: rest) z → key x ≤ key z) ∧ Right rest

/-- One listed element names another. -/
def Dep (l : List α) (x y : α) : Prop := x ∈ l ∧ y ∈ l.erase x ∧ names x y = true

def Reach (l : List α) : α → α → Prop := Relation.TransGen (Dep names l)

def Acyclic (l : List α) : Prop := ∀ x, ¬ Reach names l x x

open Classical in
/-- The elements that `z` does not wait for. -/
noncomputable def others (l : List α) (z : α) : List α := l.filter fun y => ¬ Reach names l z y

/-- Of the elements that `z` does not wait for it is the first, and each of them names one of them. -/
def SettledAt (l : List α) (z : α) : Prop :=
  (others names l z).head? = some z ∧ ∀ y ∈ others names l z, ∃ w ∈ others names l z, names y w = true

/-! ### One step -/

section Step

variable {names key} {pending : List α} {x z : α}

theorem order_perm (names : α → α → Bool) (key : α → κ) : ∀ (n : Nat) (pending : List α), pending.length = n →
    (order names key n pending).Perm pending
  | 0, pending, h => by simp [order, List.length_eq_zero_iff.mp h]
  | n + 1, pending, h => by
    have hne : pending ≠ [] := by rintro rfl; simp at h
    obtain ⟨x, hx, hpick⟩ := exists_pick names key hne
    have hrest := order_perm names key n (pending.erase x) (by rw [List.length_erase_of_mem hx, h]; rfl)
    simp only [order, hpick]
    exact (hrest.cons x).trans (List.perm_cons_erase hx).symm

theorem free_of_ready (h : ∀ y ∈ pending, names x y = false) : Free names pending x := fun y hy =>
  h y (List.mem_of_mem_erase hy)

/-- An element that is free and not ready names itself. -/
theorem names_self (hz : Free names pending z) (hn : ¬ ∀ y ∈ pending, names z y = false) : names z z = true := by
  push Not at hn
  obtain ⟨y, hy, hnames⟩ := hn
  by_cases hyz : y = z
  · subst hyz
    simpa using hnames
  · exact absurd (hz y ((List.mem_erase_of_ne hyz).mpr hy)) hnames

theorem free_perm {other : List α} (h : pending.Perm other) : Free names pending x ↔ Free names other x :=
  forall_congr' fun _ => by rw [(h.erase x).mem_iff]

theorem right_step {n : Nat} (hlen : pending.length = n + 1) (hx : x ∈ pending)
    (hpick : pick names key pending = some x) :
    Right names key (order names key (n + 1) pending) ↔
      Free names pending x ∧ (∀ z ∈ pending, Free names pending z → key x ≤ key z) ∧
        Right names key (order names key n (pending.erase x)) := by
  have hrest := order_perm names key n (pending.erase x)
    (by rw [List.length_erase_of_mem hx, hlen]; rfl)
  have hperm := (hrest.cons x).trans (List.perm_cons_erase hx).symm
  simp only [order, hpick, Right, free_perm hperm, hperm.mem_iff]

end Step

/-! ### Runs -/

section Runs

variable {names key} {l pending : List α} {x z : α}

theorem mem_others {y : α} : y ∈ others names l z ↔ y ∈ l ∧ ¬ Reach names l z y := by
  simp [others]

/-- What is still to be placed in a right order so far: whatever names it is still to be placed too. -/
structure Along (names : α → α → Bool) (l pending : List α) : Prop where
  sub : pending.Sublist l
  closed : ∀ w y, Dep names l w y → y ∈ pending → w ∈ pending

theorem Along.start (names : α → α → Bool) (l : List α) : Along names l l := ⟨List.Sublist.refl l, fun _ _ h _ => h.1⟩

theorem Along.place (h : Along names l pending) (hx : Free names pending x) : Along names l (pending.erase x) where
  sub := List.erase_sublist.trans h.sub
  closed := by
    intro w y hd hy
    have hw := h.closed w y hd (List.mem_of_mem_erase hy)
    by_cases hwx : w = x
    · subst hwx
      exact absurd hd.2.2 (by simp [hx y hy])
    · exact (List.mem_erase_of_ne hwx).mpr hw

theorem Along.dep (h : Along names l pending) {y : α} (hx : x ∈ pending) (hy : y ∈ pending.erase x)
    (hn : names x y = true) : Dep names l x y :=
  ⟨h.sub.mem hx, (h.sub.erase x).mem hy, hn⟩

theorem Along.once (h : Along names l pending) (hac : Acyclic names l) (hx : x ∈ pending) (hn : names x x = true) :
    x ∉ pending.erase x := fun hmem => hac x (.single (h.dep hx hmem hn))

theorem Along.not_reach (h : Along names l pending) (hac : Acyclic names l) (hz : Free names pending z) {y : α}
    (hr : Reach names l z y) : y ∉ pending := by
  induction hr with
  | single hd =>
    rename_i y
    intro hy
    have hne : y ≠ z := by
      rintro rfl
      exact hac y (.single hd)
    exact absurd hd.2.2 (by simp [hz y ((List.mem_erase_of_ne hne).mpr hy)])
  | tail _ hd ih => exact fun hy => ih (h.closed _ _ hd hy)

open Classical in
/-- When an element is free and nothing but what it waits for has been placed, all the others are left. -/
theorem Along.eq_others (h : Along names l pending) (hac : Acyclic names l) (hz : Free names pending z)
    (hleft : (others names l z).Sublist pending) : pending = others names l z := by
  have hall : pending.filter (fun y => decide (¬ Reach names l z y)) = pending := by
    rw [List.filter_eq_self]
    intro y hy
    simpa using fun hr => h.not_reach hac hz hr hy
  have hsub := h.sub.filter fun y => decide (¬ Reach names l z y)
  rw [hall] at hsub
  exact hsub.antisymm hleft

theorem others_erase (hx : x ∉ others names l z) (hleft : (others names l z).Sublist pending) :
    (others names l z).Sublist (pending.erase x) := by
  have herase := hleft.erase x
  rwa [List.erase_of_not_mem hx] at herase

/-- Some element waits for none of a list. -/
theorem exists_not_reach (hac : Acyclic names l) : ∀ p : List α, p ≠ [] → ∃ m ∈ p, ∀ y ∈ p, ¬ Reach names l m y
  | [], h => absurd rfl h
  | [a], _ => ⟨a, List.mem_cons_self, by simpa using hac a⟩
  | a :: b :: p, _ => by
    obtain ⟨m, hm, hle⟩ := exists_not_reach hac (b :: p) (by simp)
    by_cases hma : Reach names l m a
    · refine ⟨a, List.mem_cons_self, ?_⟩
      intro y hy hay
      rcases List.mem_cons.mp hy with rfl | hy
      · exact hac y hay
      · exact hle y hy (hma.trans hay)
    · refine ⟨m, List.mem_cons_of_mem _ hm, ?_⟩
      intro y hy
      rcases List.mem_cons.mp hy with rfl | hy
      · exact hma
      · exact hle y hy

theorem Along.exists_free (h : Along names l pending) (hac : Acyclic names l) (hne : pending ≠ []) :
    ∃ m ∈ pending, Free names pending m := by
  obtain ⟨m, hm, hle⟩ := exists_not_reach hac pending hne
  refine ⟨m, hm, ?_⟩
  intro y hy
  by_contra hn
  exact hle y (List.mem_of_mem_erase hy) (.single (h.dep hm hy (by simpa using hn)))

/-- Where an element names itself and is free, no element is ready and it comes first. -/
theorem Along.settled (h : Along names l pending) (hac : Acyclic names l) (hset : SettledAt names l z)
    (hleft : (others names l z).Sublist pending) (hz : Free names pending z) :
    pending.head? = some z ∧ ∀ y ∈ pending, ∃ w ∈ pending, names y w = true := by
  rw [h.eq_others hac hz hleft]
  exact hset

/-- The element placed next is free, least among the free ones, and none that a settled element comes before. -/
theorem pick_right {pending : List α} {x : α} (hac : Acyclic names l)
    (hset : ∀ z ∈ l, names z z = true → SettledAt names l z) (halong : Along names l pending)
    (hleft : ∀ z ∈ pending, names z z = true → (others names l z).Sublist pending) (hx : x ∈ pending)
    (hpick : pick names key pending = some x) :
    Free names pending x ∧ (∀ z ∈ pending, Free names pending z → key x ≤ key z) ∧
      ∀ z ∈ pending.erase x, names z z = true → x ∉ others names l z := by
  have hself : ∀ z ∈ pending, Free names pending z → names z z = true →
      pending.head? = some z ∧ ∀ y ∈ pending, ∃ w ∈ pending, names y w = true := fun z hz hfree hn =>
    halong.settled hac (hset z (halong.sub.mem hz) hn) (hleft z hz hn) hfree
  rcases pick_cases hpick with ⟨-, hready, hle⟩ | ⟨hnone, hhead⟩
  · refine ⟨free_of_ready hready, ?_, ?_⟩
    · intro z hz hfree
      by_cases hr : ∀ y ∈ pending, names z y = false
      · exact hle z hz hr
      · obtain ⟨w, hw, hn⟩ := (hself z hz hfree (names_self hfree hr)).2 x hx
        exact absurd hn (by simp [hready w hw])
    · intro z hz hn hxo
      have hz := List.mem_of_mem_erase hz
      obtain ⟨w, hw, hnw⟩ := (hset z (halong.sub.mem hz) hn).2 x hxo
      exact absurd hnw (by simp [hready w ((hleft z hz hn).mem hw)])
  · have hfirst : ∀ z ∈ pending, Free names pending z → z = x ∧ names z z = true := by
      intro z hz hfree
      have hn := names_self hfree (by
        obtain ⟨y, hy, hny⟩ := hnone z hz
        exact fun hr => absurd hny (by simp [hr y hy]))
      have hhz := (hself z hz hfree hn).1
      exact ⟨Option.some.inj (hhz.symm.trans hhead), hn⟩
    obtain ⟨m, hm, hmfree⟩ := halong.exists_free hac (List.ne_nil_of_mem hx)
    obtain ⟨rfl, hnm⟩ := hfirst m hm hmfree
    refine ⟨hmfree, ?_, ?_⟩
    · intro z hz hfree
      rw [(hfirst z hz hfree).1]
    · -- What is left after the first element does not hold it again, but holds all that comes with `z`.
      intro z hz hn hmo
      have honce := halong.once hac hm hnm
      obtain ⟨rest, rfl⟩ : ∃ rest, pending = m :: rest := by
        obtain ⟨rest, hrest⟩ := List.head?_eq_some_iff.mp hhead
        exact ⟨rest, hrest⟩
      rw [List.erase_cons_head] at honce hz
      have hzm : z ≠ m := fun e => honce (e ▸ hz)
      have hzl := List.mem_cons_of_mem m hz
      have hhz := (hset z (halong.sub.mem hzl) hn).1
      rcases List.sublist_cons_iff.mp (hleft z hzl hn) with hsub | ⟨r, hr, -⟩
      · exact honce (hsub.mem hmo)
      · rw [hr] at hhz
        exact hzm (Option.some.inj hhz).symm

/-- If the elements that name themselves are settled, the loop places each element in its turn. -/
theorem right_order (hac : Acyclic names l) (hset : ∀ z ∈ l, names z z = true → SettledAt names l z) :
    ∀ n pending, pending.length = n → Along names l pending →
      (∀ z ∈ pending, names z z = true → (others names l z).Sublist pending) →
      Right names key (order names key n pending)
  | 0, _, _, _, _ => trivial
  | n + 1, pending, hlen, halong, hleft => by
    have hne : pending ≠ [] := by rintro rfl; simp at hlen
    obtain ⟨x, hx, hpick⟩ := exists_pick names key hne
    obtain ⟨hfree, hleast, hkept⟩ := pick_right hac hset halong hleft hx hpick
    rw [right_step hlen hx hpick]
    refine ⟨hfree, hleast, ?_⟩
    refine right_order hac hset n _ (by rw [List.length_erase_of_mem hx, hlen]; rfl) (halong.place hfree) ?_
    intro z hz hn
    exact others_erase (hkept z hz hn) (hleft z (List.mem_of_mem_erase hz) hn)

/-- Under a key that puts an element and all it waits for before the others, the loop places it right only if it is
settled. -/
theorem settledAt_of_right (hac : Acyclic names l) (hn : names z z = true)
    (hkey : ∀ a b, (a = z ∨ Reach names l z a) → ¬ (b = z ∨ Reach names l z b) → key a < key b) :
    ∀ n pending, pending.length = n → Along names l pending → z ∈ pending → (others names l z).Sublist pending →
      Right names key (order names key n pending) → SettledAt names l z
  | 0, pending, hlen, _, hz, _, _ => by simp [List.length_eq_zero_iff.mp hlen] at hz
  | n + 1, pending, hlen, halong, hz, hleft, hright => by
    obtain ⟨x, hx, hpick⟩ := exists_pick names key (List.ne_nil_of_mem hz)
    obtain ⟨hfree, hle, hrest⟩ := (right_step hlen hx hpick).mp hright
    by_cases hxz : x = z
    · subst hxz
      unfold SettledAt
      rw [← halong.eq_others hac hfree hleft]
      rcases pick_cases hpick with ⟨-, hready, -⟩ | ⟨hnone, hhead⟩
      · exact absurd hn (by simp [hready x hx])
      · exact ⟨hhead, hnone⟩
    · have hreach : Reach names l z x := by
        classical
        -- Among `z` and what it waits for some element is free, so the element placed next is one of them.
        obtain ⟨m, hm, hmin⟩ := exists_not_reach hac (pending.filter fun y => y = z ∨ Reach names l z y)
          (List.ne_nil_of_mem (List.mem_filter.mpr ⟨hz, by simp⟩))
        simp only [List.mem_filter, decide_eq_true_eq] at hm hmin
        have hmfree : Free names pending m := by
          intro y hy
          by_contra hny
          have hmy : Reach names l m y := .single (halong.dep hm.1 hy (by simpa using hny))
          refine hmin y ⟨List.mem_of_mem_erase hy, Or.inr ?_⟩ hmy
          rcases hm.2 with rfl | hzm
          · exact hmy
          · exact hzm.trans hmy
        by_contra hnr
        exact absurd (hle m hm.1 hmfree) (not_le.mpr (hkey m x hm.2 (by tauto)))
      have hxo : x ∉ others names l z := fun h => (mem_others.mp h).2 hreach
      exact settledAt_of_right hac hn hkey n _ (by rw [List.length_erase_of_mem hx, hlen]; rfl) (halong.place hfree)
        ((List.mem_erase_of_ne (Ne.symm hxz)).mpr hz) (others_erase hxo hleft) hrest

theorem others_sublist : (others names l z).Sublist l := List.filter_sublist

end Runs

end Greedy
