/-!
# Store programs that fail part way

A program over a store either returns a value or fails with a text, and in both cases leaves a store behind:
what it wrote before the failure stays written. This is the standard `ExceptT` over `StateM`; the lemmas below
evaluate such a program on a store.
-/

/-- Programs over a store `σ` that may fail with a text and do not undo what they wrote. -/
abbrev Tx (σ : Type) := ExceptT String (StateM σ)

namespace Tx

variable {σ τ α β : Type}

/-- The result of the program on a store, and the store it leaves. -/
def exec (x : Tx σ α) (s : σ) : Except String α × σ := (ExceptT.run x).run s

def read (f : σ → α) : Tx σ α := do return f (← get)

def write (f : σ → σ) : Tx σ Unit := modify f

def mapErr (f : String → String) (x : Tx σ α) : Tx σ α := tryCatch x fun e => throw (f e)

def context (msg : String) (x : Tx σ α) : Tx σ α := mapErr (fun e => msg ++ ": " ++ e) x

/-- Run the program for its writes only: its result, be it a value or a failure, is dropped. -/
def ignore (x : Tx σ α) : Tx σ Unit := tryCatch (x *> pure ()) fun _ => pure ()

/-- Run the program and hand on its result, be it a value or a failure. -/
def attempt (x : Tx σ α) : Tx σ (Except String α) := tryCatch (Except.ok <$> x) fun e => pure (.error e)

def okOr (o : Option α) (e : String) : Tx σ α := match o with | some a => pure a | none => throw e

def ofExcept (r : Except String α) : Tx σ α := match r with | .ok a => pure a | .error e => throw e

/-- A program over a part of the store. -/
def zoom (part : τ → σ) (set : σ → τ → τ) (x : Tx σ α) : Tx τ α :=
  ExceptT.mk fun t => ((x.exec (part t)).1, set (x.exec (part t)).2 t)

@[simp] theorem exec_pure (a : α) (s : σ) : exec (pure a : Tx σ α) s = (.ok a, s) := rfl

@[simp] theorem exec_throw (e : String) (s : σ) : exec (throw e : Tx σ α) s = (.error e, s) := rfl

@[simp] theorem exec_write (f : σ → σ) (s : σ) : exec (write f) s = (.ok (), f s) := rfl

theorem exec_bind (x : Tx σ α) (f : α → Tx σ β) (s : σ) :
    exec (x >>= f) s = match exec x s with
      | (.ok a, s') => exec (f a) s'
      | (.error e, s') => (.error e, s') := by
  simp only [exec, bind, ExceptT.bind, ExceptT.mk, ExceptT.run, StateT.bind, StateT.run]
  rcases x s with ⟨_ | _, _⟩ <;> rfl

theorem exec_tryCatch (x : Tx σ α) (h : String → Tx σ α) (s : σ) :
    exec (tryCatch x h) s = match exec x s with
      | (.ok a, s') => (.ok a, s')
      | (.error e, s') => exec (h e) s' := by
  simp only [exec, tryCatch, tryCatchThe, MonadExceptOf.tryCatch, ExceptT.tryCatch, ExceptT.mk, ExceptT.run,
    StateT.run, bind, StateT.bind]
  rcases x s with ⟨_ | _, _⟩ <;> rfl

theorem exec_mapErr (f : String → String) (x : Tx σ α) (s : σ) :
    exec (mapErr f x) s = match exec x s with
      | (.ok a, s') => (.ok a, s')
      | (.error e, s') => (.error (f e), s') := by
  rw [mapErr, exec_tryCatch]
  rfl

@[simp] theorem exec_mapErr_snd (f : String → String) (x : Tx σ α) (s : σ) :
    (exec (mapErr f x) s).2 = (exec x s).2 := by
  rw [exec_mapErr]
  rcases exec x s with ⟨_ | _, _⟩ <;> rfl

@[simp] theorem exec_context_snd (msg : String) (x : Tx σ α) (s : σ) :
    (exec (context msg x) s).2 = (exec x s).2 :=
  exec_mapErr_snd _ x s

theorem exec_map (f : α → β) (x : Tx σ α) (s : σ) :
    exec (f <$> x) s = match exec x s with
      | (.ok a, s') => (.ok (f a), s')
      | (.error e, s') => (.error e, s') := by
  simp only [exec, Functor.map, ExceptT.map, ExceptT.mk, ExceptT.run, StateT.run, bind, StateT.bind]
  rcases x s with ⟨_ | _, _⟩ <;> rfl

theorem exec_ignore (x : Tx σ α) (s : σ) : exec (ignore x) s = (.ok (), (exec x s).2) := by
  have hseq : x *> pure () = x >>= fun _ => (pure () : Tx σ Unit) := rfl
  rw [ignore, exec_tryCatch, hseq, exec_bind]
  rcases exec x s with ⟨_ | _, _⟩ <;> rfl

theorem exec_attempt (x : Tx σ α) (s : σ) : exec (attempt x) s = (.ok (exec x s).1, (exec x s).2) := by
  rw [attempt, exec_tryCatch, exec_map]
  rcases exec x s with ⟨_ | _, _⟩ <;> rfl

theorem exec_ite (c : Prop) [Decidable c] (x y : Tx σ α) (s : σ) :
    exec (if c then x else y) s = if c then exec x s else exec y s := by
  split <;> rfl

@[simp] theorem exec_ofExcept (r : Except String α) (s : σ) : exec (ofExcept r) s = (r, s) := by
  cases r <;> rfl

theorem exec_bind_of_ok {x : Tx σ α} {s : σ} {a : α} (h : (x.exec s).1 = .ok a) (f : α → Tx σ β) :
    exec (x >>= f) s = exec (f a) (x.exec s).2 := by
  rw [exec_bind]
  rcases hr : x.exec s with ⟨r, s'⟩
  rw [hr] at h
  obtain rfl : r = .ok a := h
  rfl

theorem exec_bind_of_error {x : Tx σ α} {s : σ} {e : String} (h : (x.exec s).1 = .error e) (f : α → Tx σ β) :
    exec (x >>= f) s = (.error e, (x.exec s).2) := by
  rw [exec_bind]
  rcases hr : x.exec s with ⟨r, s'⟩
  rw [hr] at h
  obtain rfl : r = .error e := h
  rfl

@[simp] theorem exec_read_bind (g : σ → α) (f : α → Tx σ β) (s : σ) : exec (read g >>= f) s = exec (f (g s)) s :=
  exec_bind_of_ok rfl f

@[simp] theorem exec_write_bind (g : σ → σ) (f : Unit → Tx σ β) (s : σ) :
    exec (write g >>= f) s = exec (f ()) (g s) :=
  exec_bind_of_ok rfl f

@[simp] theorem exec_ofExcept_ok_bind (a : α) (f : α → Tx σ β) (s : σ) :
    exec (ofExcept (.ok a) >>= f) s = exec (f a) s :=
  exec_bind_of_ok rfl f

@[simp] theorem exec_ofExcept_error_bind (e : String) (f : α → Tx σ β) (s : σ) :
    exec (ofExcept (.error e) >>= f) s = (.error e, s) := by
  rw [exec_bind]; rfl

/-! ### Programs that return -/

/-- The program returns a value on every store. -/
def Returns (x : Tx σ α) : Prop := ∀ s, ∃ a, (x.exec s).1 = .ok a

namespace Returns

theorem pure (a : α) : Returns (Pure.pure a : Tx σ α) := fun _ => ⟨a, rfl⟩

theorem read (g : σ → α) : Returns (Tx.read g) := fun s => ⟨g s, rfl⟩

theorem write (g : σ → σ) : Returns (Tx.write g) := fun _ => ⟨(), rfl⟩

theorem bind {x : Tx σ α} {g : α → Tx σ β} (hx : Returns x) (hg : ∀ a, Returns (g a)) : Returns (x >>= g) := by
  intro s
  obtain ⟨a, ha⟩ := hx s
  rw [exec_bind_of_ok ha]
  exact hg a _

theorem ite {c : Prop} [Decidable c] {x y : Tx σ α} (hx : Returns x) (hy : Returns y) :
    Returns (if c then x else y) := by
  split
  · exact hx
  · exact hy

end Returns

/-! ### Frames -/

/-- The program leaves the part `f` of the store as it was, whether it returns or fails. -/
def Keeps (f : σ → τ) (x : Tx σ α) : Prop := ∀ s, f (x.exec s).2 = f s

namespace Keeps

variable {f : σ → τ} {x : Tx σ α}

theorem pure (a : α) : Keeps f (Pure.pure a : Tx σ α) := fun _ => rfl

theorem throw (e : String) : Keeps f (MonadExcept.throw e : Tx σ α) := fun _ => rfl

theorem read (g : σ → α) : Keeps f (Tx.read g) := fun _ => rfl

theorem write {g : σ → σ} (h : ∀ s, f (g s) = f s) : Keeps f (Tx.write g) := h

theorem bind {g : α → Tx σ β} (hx : Keeps f x) (hg : ∀ a, Keeps f (g a)) : Keeps f (x >>= g) := by
  intro s
  have h := hx s
  rw [exec_bind]
  rcases hr : x.exec s with ⟨r, s'⟩
  rw [hr] at h
  cases r with
  | error e => exact h
  | ok a => exact (hg a s').trans h

/-- What follows a program and keeps a part leaves that part as the program did. -/
theorem exec_bind {g : α → Tx σ β} (hg : ∀ a, Keeps f (g a)) (s : σ) :
    f ((x >>= g).exec s).2 = f (x.exec s).2 := by
  rw [Tx.exec_bind]
  rcases x.exec s with ⟨_ | a, s'⟩
  · rfl
  · exact hg a s'

/-- What follows a program that keeps a part is not reached, or starts with that part as it was. -/
theorem bind_cases (hx : Keeps f x) (g : α → Tx σ β) (s : σ) :
    f ((x >>= g).exec s).2 = f s ∨ ∃ a s', f s' = f s ∧ (x >>= g).exec s = (g a).exec s' := by
  have h := hx s
  rw [Tx.exec_bind]
  rcases hr : x.exec s with ⟨r, s'⟩
  rw [hr] at h
  cases r with
  | error e => exact .inl h
  | ok a => exact .inr ⟨a, s', h, rfl⟩

theorem ite {c : Prop} [Decidable c] {x y : Tx σ α} (hx : Keeps f x) (hy : Keeps f y) :
    Keeps f (if c then x else y) := by
  split
  · exact hx
  · exact hy

theorem tryCatch {h : String → Tx σ α} (hx : Keeps f x) (hh : ∀ e, Keeps f (h e)) :
    Keeps f (MonadExcept.tryCatch x h) := by
  intro s
  have hs := hx s
  rw [exec_tryCatch]
  rcases hr : x.exec s with ⟨r, s'⟩
  rw [hr] at hs
  cases r with
  | error e => exact (hh e s').trans hs
  | ok a => exact hs

theorem ignore (hx : Keeps f x) : Keeps f x.ignore := by
  intro s
  rw [exec_ignore]
  exact hx s

theorem mapErr (g : String → String) (hx : Keeps f x) : Keeps f (x.mapErr g) := by
  intro s
  rw [exec_mapErr_snd]
  exact hx s

theorem context (msg : String) (hx : Keeps f x) : Keeps f (x.context msg) := hx.mapErr _

theorem comp {υ : Type} (hx : Keeps f x) (g : τ → υ) : Keeps (fun s => g (f s)) x :=
  fun s => congrArg g (hx s)

theorem ofExcept (r : Except String α) : Keeps f (Tx.ofExcept r : Tx σ α) := by
  cases r
  · exact throw _
  · exact pure _

end Keeps

/-! ### Invariants -/

/-- The program takes stores with the property to stores with it, whether it returns or fails. -/
def Maintains (P : σ → Prop) (x : Tx σ α) : Prop := ∀ s, P s → P (x.exec s).2

namespace Maintains

variable {P : σ → Prop} {x : Tx σ α}

theorem pure (a : α) : Maintains P (Pure.pure a : Tx σ α) := fun _ h => h

theorem throw (e : String) : Maintains P (MonadExcept.throw e : Tx σ α) := fun _ h => h

theorem read (g : σ → α) : Maintains P (Tx.read g) := fun _ h => h

theorem write {g : σ → σ} (h : ∀ s, P s → P (g s)) : Maintains P (Tx.write g) := h

theorem bind {g : α → Tx σ β} (hx : Maintains P x) (hg : ∀ a, Maintains P (g a)) :
    Maintains P (x >>= g) := by
  intro s hs
  have h := hx s hs
  rw [exec_bind]
  rcases hr : x.exec s with ⟨r, s'⟩
  rw [hr] at h
  cases r with
  | error e => exact h
  | ok a => exact hg a s' h

theorem ite {c : Prop} [Decidable c] {x y : Tx σ α} (hx : Maintains P x) (hy : Maintains P y) :
    Maintains P (if c then x else y) := by
  split
  · exact hx
  · exact hy

theorem ignore (hx : Maintains P x) : Maintains P x.ignore := by
  intro s hs
  rw [exec_ignore]
  exact hx s hs

theorem mapErr (g : String → String) (hx : Maintains P x) : Maintains P (x.mapErr g) := by
  intro s hs
  rw [exec_mapErr_snd]
  exact hx s hs

theorem context (msg : String) (hx : Maintains P x) : Maintains P (x.context msg) := hx.mapErr _

theorem ofExcept (r : Except String α) : Maintains P (Tx.ofExcept r : Tx σ α) := by
  cases r
  · exact throw _
  · exact pure _

end Maintains

end Tx
