/-!
# Processes that share a state

A process is a program that talks to its surroundings call by call, and is a tree: a result, or a call and what
follows each answer. Several processes run on one shared state, and between two calls of one of them the others
may do what it relies on. `Safe` says that every call of a process is good, whatever the answers are and however
the others interfere; `Triple` is the rule of pre- and postconditions for it. Nothing is assumed about how the
processes are scheduled, started or stopped.
-/

/-- Programs over the calls `E`, where a call `e` is answered in `R e`. -/
inductive Process (E : Type) (R : E → Type) (α : Type) where
  | ret (a : α)
  | call (e : E) (k : R e → Process E R α)

namespace Process

variable {E : Type} {R : E → Type} {α β : Type}

def andThen : Process E R α → (α → Process E R β) → Process E R β
  | ret a, f => f a
  | call e k, f => call e fun r => (k r).andThen f

instance : Monad (Process E R) where
  pure := ret
  bind := andThen

def ask (e : E) : Process E R (R e) := call e ret

def returned : Process E R α → Bool
  | ret _ => true
  | call _ _ => false

def next : Process E R α → Option E
  | ret _ => none
  | call e _ => some e

/-- Every call of the program satisfies `φ`, whatever the answers are. -/
def All (φ : E → Prop) : Process E R α → Prop
  | ret _ => True
  | call e k => φ e ∧ ∀ r, All φ (k r)

variable {σ κ : Type}

/-- The next call of a program, for a choice of the surroundings. -/
def advance (act : (e : E) → κ → σ → R e × σ) (c : κ) (s : σ) : Process E R α → Process E R α × σ
  | ret a => (ret a, s)
  | call e k => (k (act e c s).1, (act e c s).2)

/-- What a process is held to: what the others may do to the state between two of its calls, which choices the
surroundings may make, and which calls are good. A good call leaves to the others what they rely on. -/
structure Contract (E : Type) (R : E → Type) (σ κ : Type) where
  act : (e : E) → κ → σ → R e × σ
  rely : σ → σ → Prop
  allowed : σ → E → κ → Prop
  good : σ → E → κ → Prop
  refl : ∀ s, rely s s
  trans : ∀ s s' s'', rely s s' → rely s' s'' → rely s s''
  keeps : ∀ s e c, allowed s e c → good s e c → rely s (act e c s).2

variable (C : Contract E R σ κ) {Q Q' : α → σ → Prop} {P P' : σ → Prop} {p : Process E R α} {s s' : σ}

/-- Every call of the program is good, and what it returns with satisfies `Q`. -/
def Safe (Q : α → σ → Prop) : Process E R α → σ → Prop
  | ret a, s => ∀ s', C.rely s s' → Q a s'
  | call e k, s => ∀ s', C.rely s s' → ∀ c, C.allowed s' e c →
      C.good s' e c ∧ Safe Q (k (C.act e c s').1) (C.act e c s').2

/-- The others do not invalidate the property. -/
def Stable (P : σ → Prop) : Prop := ∀ s s', C.rely s s' → P s → P s'

variable {C}

theorem Stable.and (hP : Stable C P) (hP' : Stable C P') : Stable C fun s => P s ∧ P' s :=
  fun s s' h hs => ⟨hP s s' h hs.1, hP' s s' h hs.2⟩

theorem Stable.forall {ι : Type} {P : ι → σ → Prop} (h : ∀ i, Stable C (P i)) (l : List ι) :
    Stable C fun s => ∀ i ∈ l, P i s := fun s s' hrely hs i hi => h i s s' hrely (hs i hi)

theorem Stable.ok {ε : Type} {P : α → σ → Prop} (h : ∀ a, Stable C (P a)) (r : Except ε α) :
    Stable C fun s => ∀ a, r = .ok a → P a s := fun s s' hrely hs a ha => h a s s' hrely (hs a ha)

/-- What the others do keeps a program safe. -/
theorem Safe.interfere (h : Safe C Q p s) (hs : C.rely s s') : Safe C Q p s' := by
  cases p with
  | ret a => exact fun s'' hs' => h s'' (C.trans s s' s'' hs hs')
  | call e k => exact fun s'' hs' => h s'' (C.trans s s' s'' hs hs')

theorem Safe.mono (h : Safe C Q p s) (hQ : ∀ a s, Q a s → Q' a s) : Safe C Q' p s := by
  induction p generalizing s with
  | ret a => exact fun s' hs => hQ a s' (h s' hs)
  | call e k ih =>
    intro s' hs c hc
    obtain ⟨hgood, hrest⟩ := h s' hs c hc
    exact ⟨hgood, ih _ hrest⟩

/-- What the others do not invalidate is kept by the program as well. -/
theorem Safe.frame (h : Safe C Q p s) (hP : Stable C P) (hs : P s) : Safe C (fun a s => Q a s ∧ P s) p s := by
  induction p generalizing s with
  | ret a => exact fun s' hs' => ⟨h s' hs', hP s s' hs' hs⟩
  | call e k ih =>
    intro s' hs' c hc
    obtain ⟨hgood, hrest⟩ := h s' hs' c hc
    exact ⟨hgood, ih _ hrest (hP s' _ (C.keeps s' e c hc hgood) (hP s s' hs' hs))⟩

theorem Safe.bind {f : α → Process E R β} {Q : β → σ → Prop} (h : Safe C (fun a s => Safe C Q (f a) s) p s) :
    Safe C Q (p >>= f) s := by
  induction p generalizing s with
  | ret a => exact h s (C.refl s)
  | call e k ih =>
    intro s' hs c hc
    obtain ⟨hgood, hrest⟩ := h s' hs c hc
    exact ⟨hgood, ih _ hrest⟩

/-- The next call of a safe program is good, and leaves a safe program. -/
theorem Safe.advance {c : κ} (h : Safe C Q p s) (hc : ∀ e, p.next = some e → C.allowed s e c) :
    (∀ e, p.next = some e → C.good s e c) ∧ Safe C Q (p.advance C.act c s).1 (p.advance C.act c s).2 := by
  cases p with
  | ret a => exact ⟨fun e hp => absurd hp (by simp [next]), h⟩
  | call e k =>
    obtain ⟨hgood, hrest⟩ := h s (C.refl s) c (hc e rfl)
    refine ⟨fun e' hp => ?_, hrest⟩
    cases hp
    exact hgood

/-- What a program does to the state is what its next call does, if it has one. -/
theorem advance_snd (act : (e : E) → κ → σ → R e × σ) (c : κ) (s : σ) (p : Process E R α) :
    (p.advance act c s).2 = match p.next with
      | some e => (act e c s).2
      | none => s := by
  cases p <;> rfl

/-! ### Pre- and postconditions -/

/-- From every state with `P` the program is safe and returns with `Q`. -/
def Triple (C : Contract E R σ κ) (P : σ → Prop) (p : Process E R α) (Q : α → σ → Prop) : Prop :=
  ∀ s, P s → Safe C Q p s

namespace Triple

theorem ret {a : α} (hP : Stable C P) (h : ∀ s, P s → Q a s) : Triple C P (pure a) Q :=
  fun s hs s' hrely => h s' (hP s s' hrely hs)

theorem bind {f : α → Process E R β} {Q' : β → σ → Prop} (hp : Triple C P p Q)
    (hf : ∀ a, Triple C (Q a) (f a) Q') : Triple C P (p >>= f) Q' :=
  fun s hs => Safe.bind ((hp s hs).mono hf)

theorem ask {e : E} {Q : R e → σ → Prop} (hP : Stable C P) (hQ : ∀ r, Stable C (Q r))
    (h : ∀ s c, P s → C.allowed s e c → C.good s e c ∧ Q (C.act e c s).1 (C.act e c s).2) :
    Triple C P (Process.ask e) Q := by
  intro s hs s' hrely c hc
  obtain ⟨hgood, hpost⟩ := h s' c (hP s s' hrely hs) hc
  exact ⟨hgood, fun s'' hrely' => hQ _ _ s'' hrely' hpost⟩

theorem plain {e : E} (hP : Stable C P) (h : ∀ s c, C.allowed s e c → C.good s e c) :
    Triple C P (Process.ask e) fun _ => P :=
  .ask hP (fun _ => hP) fun s c hs hc => ⟨h s c hc, hP s _ (C.keeps s e c hc (h s c hc)) hs⟩

theorem ite {c : Prop} [Decidable c] {q : Process E R α} (hp : c → Triple C P p Q) (hq : ¬ c → Triple C P q Q) :
    Triple C P (if c then p else q) Q := by
  split
  · exact hp ‹_›
  · exact hq ‹_›

theorem conseq (h : Triple C P p Q) (hP : ∀ s, P' s → P s) (hQ : ∀ a s, Q a s → Q' a s) : Triple C P' p Q' :=
  fun s hs => (h s (hP s hs)).mono hQ

theorem frame (h : Triple C P p Q) (hP' : Stable C P') :
    Triple C (fun s => P s ∧ P' s) p fun a s => Q a s ∧ P' s :=
  fun s hs => (h s hs.1).frame hP' hs.2

/-- A program whose calls are good wherever they are allowed. -/
theorem of_all (h : p.All fun e => ∀ s c, C.allowed s e c → C.good s e c) :
    Triple C (fun _ => True) p fun _ _ => True := by
  induction p with
  | ret a => exact fun _ _ _ _ => trivial
  | call e k ih =>
    intro _ _ s _ c hc
    exact ⟨h.1 s c hc, ih _ (h.2 _) _ trivial⟩

end Triple

/-! ### Programs that may fail -/

/-- From every state with `P` the program is safe, and if it does not fail it returns with `Q`. -/
def Tries (C : Contract E R σ κ) {ε : Type} (P : σ → Prop) (p : ExceptT ε (Process E R) α) (Q : α → σ → Prop) : Prop :=
  Triple C P p.run fun r s => ∀ a, r = .ok a → Q a s

namespace Tries

variable {ε : Type} {p : ExceptT ε (Process E R) α}

theorem ret {a : α} (hP : Stable C P) (h : ∀ s, P s → Q a s) : Tries C (ε := ε) P (Pure.pure a) Q := by
  refine Triple.ret hP fun s hs b hb => ?_
  cases hb
  exact h s hs

theorem bind {f : α → ExceptT ε (Process E R) β} {Q' : β → σ → Prop} (hp : Tries C P p Q)
    (hf : ∀ a, Tries C (Q a) (f a) Q') : Tries C P (p >>= f) Q' := by
  refine Triple.bind hp fun r => ?_
  cases r with
  | error e => exact fun _ _ _ _ _ hb => nomatch hb
  | ok a => exact fun s hs => hf a s (hs a rfl)

theorem lift {p : Process E R α} (h : Triple C P p Q) (hQ : ∀ a, Stable C (Q a)) :
    Tries C P (ExceptT.lift p : ExceptT ε (Process E R) α) Q := by
  refine Triple.bind h fun a => Triple.ret (hQ a) fun s hs b hb => ?_
  cases hb
  exact hs

theorem ite {c : Prop} [Decidable c] {p q : ExceptT ε (Process E R) α} (hp : c → Tries C P p Q)
    (hq : ¬ c → Tries C P q Q) : Tries C P (if c then p else q) Q := Triple.ite hp hq

theorem throw (e : ε) : Tries C P (MonadExcept.throw e : ExceptT ε (Process E R) α) Q := fun _ _ _ _ _ ha => nomatch ha

theorem conseq (h : Tries C P p Q) (hP : ∀ s, P' s → P s) (hQ : ∀ a s, Q a s → Q' a s) : Tries C P' p Q' :=
  Triple.conseq h hP fun _ s hs a ha => hQ a s (hs a ha)

theorem frame (h : Tries C P p Q) (hP' : Stable C P') :
    Tries C (fun s => P s ∧ P' s) p fun a s => Q a s ∧ P' s :=
  (Triple.frame h hP').conseq (fun _ hs => hs) fun _ _ hs a ha => ⟨hs.1 a ha, hs.2⟩

end Tries

/-! ### Programs all of whose calls are alike -/

namespace All

variable {φ : E → Prop}

theorem of_forall (h : ∀ e, φ e) (p : Process E R α) : p.All φ := by
  induction p with
  | ret a => trivial
  | call e k ih => exact ⟨h e, ih⟩

end All

end Process
