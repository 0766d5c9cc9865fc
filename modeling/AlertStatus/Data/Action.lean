/-!
# Actions

An action on a state gives a value or fails, and in either case leaves a state behind: a failure takes
nothing back. Actions are composed as a monad; `runOn` shows what an action does, and there is one
equation for it per way to build an action.
-/

set_option autoImplicit false

namespace AlertStatus

/-- A computation on a state of type `σ` that gives an `α` or fails with an `ε`. -/
def Action (σ ε α : Type) : Type := σ → Except ε α × σ

namespace Action

variable {σ ε δ α β γ : Type}

/-- The outcome of an action from the state `s`, and the state it leaves. -/
def runOn (x : Action σ ε α) (s : σ) : Except ε α × σ := x s

def give (a : α) : Action σ ε α := fun s => (.ok a, s)

def fail (e : ε) : Action σ ε α := fun s => (.error e, s)

/-- Runs `x`, and if it succeeds, what `f` makes of its value. -/
def andThen (x : Action σ ε α) (f : α → Action σ ε β) : Action σ ε β := fun s =>
  match x.runOn s with
  | (.ok a, s') => (f a).runOn s'
  | (.error e, s') => (.error e, s')

instance : Monad (Action σ ε) where
  pure := give
  bind := andThen

/-- Gives what `f` sees in the state. -/
def look (f : σ → α) : Action σ ε α := fun s => (.ok (f s), s)

/-- Gives the outcome that `f` sees in the state. -/
def examine (f : σ → Except ε α) : Action σ ε α := fun s => (f s, s)

def ofExcept (r : Except ε α) : Action σ ε α := fun s => (r, s)

def change (f : σ → σ) : Action σ ε Unit := fun s => (.ok (), f s)

/-- Changes the state, or fails and leaves it. -/
def become (f : σ → Except ε σ) : Action σ ε Unit := fun s =>
  match f s with
  | .ok s' => (.ok (), s')
  | .error e => (.error e, s)

/-- Runs a computation that cannot fail. -/
def total (f : σ → α × σ) : Action σ ε α := fun s => (.ok (f s).1, (f s).2)

/-- Runs an action and gives its outcome, so that its failure is not a failure of the whole. -/
def attempt (x : Action σ ε α) : Action σ δ (Except ε α) := fun s =>
  (.ok (x.runOn s).1, (x.runOn s).2)

def rename (f : ε → δ) (x : Action σ ε α) : Action σ δ α := fun s =>
  ((x.runOn s).1.mapError f, (x.runOn s).2)

/-! ## What each of them does -/

@[simp] theorem runOn_pure (a : α) (s : σ) : (pure a : Action σ ε α).runOn s = (.ok a, s) := rfl

@[simp] theorem runOn_fail (e : ε) (s : σ) : (fail e : Action σ ε α).runOn s = (.error e, s) := rfl

@[simp] theorem runOn_bind (x : Action σ ε α) (f : α → Action σ ε β) (s : σ) :
    (x >>= f).runOn s =
      match x.runOn s with
      | (.ok a, s') => (f a).runOn s'
      | (.error e, s') => (.error e, s') := rfl

@[simp] theorem runOn_look (f : σ → α) (s : σ) :
    (look f : Action σ ε α).runOn s = (.ok (f s), s) := rfl

@[simp] theorem runOn_examine (f : σ → Except ε α) (s : σ) : (examine f).runOn s = (f s, s) := rfl

@[simp] theorem runOn_ofExcept (r : Except ε α) (s : σ) : (ofExcept r).runOn s = (r, s) := rfl

@[simp] theorem runOn_change (f : σ → σ) (s : σ) :
    (change f : Action σ ε Unit).runOn s = (.ok (), f s) := rfl

@[simp] theorem runOn_become (f : σ → Except ε σ) (s : σ) :
    (become f).runOn s =
      match f s with
      | .ok s' => (.ok (), s')
      | .error e => (.error e, s) := rfl

@[simp] theorem runOn_total (f : σ → α × σ) (s : σ) :
    (total f : Action σ ε α).runOn s = (.ok (f s).1, (f s).2) := rfl

@[simp] theorem runOn_attempt (x : Action σ ε α) (s : σ) :
    (x.attempt : Action σ δ (Except ε α)).runOn s = (.ok (x.runOn s).1, (x.runOn s).2) := rfl

@[simp] theorem runOn_rename (f : ε → δ) (x : Action σ ε α) (s : σ) :
    (x.rename f).runOn s = ((x.runOn s).1.mapError f, (x.runOn s).2) := rfl

/-! ## Laws of composition -/

theorem ext {x y : Action σ ε α} (h : ∀ s, x.runOn s = y.runOn s) : x = y := funext h

theorem id_map (x : Action σ ε α) : (fun a => a) <$> x = x := by
  refine ext fun s => ?_
  show (x >>= fun a => pure a).runOn s = x.runOn s
  rw [runOn_bind]
  rcases x.runOn s with ⟨_ | _, _⟩ <;> rfl

theorem bind_assoc (x : Action σ ε α) (f : α → Action σ ε β) (g : β → Action σ ε γ) :
    x >>= f >>= g = x >>= fun a => f a >>= g := by
  refine ext fun s => ?_
  simp only [runOn_bind]
  rcases x.runOn s with ⟨_ | _, _⟩ <;> rfl

instance : LawfulMonad (Action σ ε) :=
  LawfulMonad.mk' (Action σ ε) id_map (fun _ _ => rfl) bind_assoc

end Action
end AlertStatus
