import AlertStatus.Proofs.Data.Ensures
import AlertStatus.Proofs.Store.Records
import AlertStatus.Store.Fault

/-!
# Operations behind a plan of faults

A fault strikes before the store is touched. So an operation behind a plan either fails and leaves the
store, or does what it does without the plan, and whatever the operation ensures about the store it
ensures behind any plan.

The same is said of programs: `Behind x y` when `x` behind a plan fails and leaves the store, or does
what `y` does without one. It holds of a program that writes at most once, after everything that can be
refused. A program that writes and may then be refused is not behind anything, but its parts are, and
`Atomic` is what is left where the outcome without a plan does not matter.
-/

set_option autoImplicit false

namespace AlertStatus
namespace FaultyStore

variable {σ α : Type}

theorem guarded_of_strike {method : StoreMethod} {key : String} {x : Action σ StoreError α}
    {s : FaultyStore σ} {e : StoreError} {faults : List Fault}
    (h : Fault.strike method key s.faults = some (e, faults)) :
    (guarded method key x).runOn s = (.error e, { s with faults }) := by
  unfold guarded Action.runOn
  simp only [h]

theorem guarded_of_pass {method : StoreMethod} {key : String} {x : Action σ StoreError α}
    {s : FaultyStore σ} (h : Fault.strike method key s.faults = none) :
    (guarded method key x).runOn s =
      ((x.runOn s.store).1, { s with store := (x.runOn s.store).2 }) := by
  unfold guarded Action.runOn
  simp only [h]
  rfl

/-- What an operation ensures about the store, it ensures behind a plan of faults. -/
theorem ensures_guarded {I : σ → Prop} {x : Action σ StoreError α} {Q : α → Prop}
    (h : x.Ensures I Q) (method : StoreMethod) (key : String) :
    (guarded method key x).Ensures (fun s => I s.store) Q := by
  intro s hs
  obtain ⟨hI, hQ⟩ := h s.store hs
  cases hstrike : Fault.strike method key s.faults with
  | some struck =>
    obtain ⟨e, faults⟩ := struck
    rw [guarded_of_strike hstrike]
    exact ⟨hs, nofun⟩
  | none =>
    rw [guarded_of_pass hstrike]
    exact ⟨hI, hQ⟩

/-! ## Programs -/

section Programs

variable {ε δ β : Type} {x : Action (FaultyStore σ) ε α} {y : Action σ ε α}

/-- Whatever comes out of the action, the store is left as it was. -/
def Looks (x : Action (FaultyStore σ) ε α) : Prop := ∀ s, (x.runOn s).2.store = s.store

/-- The action gives a value. -/
def Sure (x : Action (FaultyStore σ) ε α) : Prop := ∀ s, ∃ a, (x.runOn s).1 = .ok a

/-- The action leaves the store as it was, or it gives a value. So an action that fails has left the
store, and one that gives a value may have done anything. -/
def Atomic (x : Action (FaultyStore σ) ε α) : Prop :=
  ∀ s, (x.runOn s).2.store = s.store ∨ ∃ a, (x.runOn s).1 = .ok a

/-- The action fails and leaves the store as it was, or it does what `y` does without a plan. -/
def Behind (x : Action (FaultyStore σ) ε α) (y : Action σ ε α) : Prop :=
  ∀ s, (∃ e, (x.runOn s).1 = .error e) ∧ (x.runOn s).2.store = s.store ∨
    ((x.runOn s).1, (x.runOn s).2.store) = y.runOn s.store

theorem Sure.atomic (h : Sure x) : Atomic x := fun s => Or.inr (h s)

theorem Atomic.rename (h : Atomic x) (f : ε → δ) : Atomic (x.rename f) := by
  intro s
  rw [Action.runOn_rename]
  refine (h s).imp_right fun ⟨a, ha⟩ => ⟨a, ?_⟩
  rw [ha]
  rfl

theorem sure_pure (a : α) : Sure (pure a : Action (FaultyStore σ) ε α) := fun _ => ⟨a, rfl⟩

theorem sure_attempt (x : Action (FaultyStore σ) ε α) :
    Sure (x.attempt : Action (FaultyStore σ) δ (Except ε α)) := fun _ => ⟨_, rfl⟩

theorem Sure.bind {f : α → Action (FaultyStore σ) ε β} (hx : Sure x) (hf : ∀ a, Sure (f a)) :
    Sure (x >>= f) := by
  intro s
  obtain ⟨a, ha⟩ := hx s
  have hrun : x.runOn s = (.ok a, (x.runOn s).2) := Prod.ext ha rfl
  rw [Action.runOn_bind, hrun]
  exact hf a _

/-- Looking first does not count: only what follows can write. -/
theorem Looks.bind_atomic {f : α → Action (FaultyStore σ) ε β} (hx : Looks x)
    (hf : ∀ a, Atomic (f a)) : Atomic (x >>= f) := by
  intro s
  have hlook := hx s
  rw [Action.runOn_bind]
  generalize x.runOn s = out at hlook
  obtain ⟨o, s₁⟩ := out
  cases o with
  | error e => exact Or.inl hlook
  | ok a =>
    have hstore : s₁.store = s.store := hlook
    dsimp only
    rw [← hstore]
    exact hf a s₁

/-- After the write only what cannot be refused follows. If it could be, the action might fail and have
written. -/
theorem Atomic.bind_sure {f : α → Action (FaultyStore σ) ε β} (hx : Atomic x)
    (hf : ∀ a, Sure (f a)) : Atomic (x >>= f) := by
  intro s
  have hfirst := hx s
  rw [Action.runOn_bind]
  generalize x.runOn s = out at hfirst
  obtain ⟨o, s₁⟩ := out
  cases o with
  | error e => exact Or.inl (hfirst.resolve_right fun ⟨_, h⟩ => nomatch h)
  | ok a => exact Or.inr (hf a s₁)

theorem behind_guarded (method : StoreMethod) (key : String) (y : Action σ StoreError α) :
    Behind (guarded method key y) y := by
  intro s
  cases hstrike : Fault.strike method key s.faults with
  | some struck =>
    rw [guarded_of_strike hstrike]
    exact Or.inl ⟨⟨_, rfl⟩, rfl⟩
  | none =>
    rw [guarded_of_pass hstrike]
    exact Or.inr rfl

theorem behind_pure (a : α) : Behind (pure a : Action (FaultyStore σ) ε α) (pure a) :=
  fun _ => Or.inr rfl

theorem behind_ofExcept (r : Except ε α) :
    Behind (Action.ofExcept r : Action (FaultyStore σ) ε α) (.ofExcept r) :=
  fun _ => Or.inr rfl

theorem behind_fail (e : ε) : Behind (Action.fail e : Action (FaultyStore σ) ε α) (.fail e) :=
  fun _ => Or.inr rfl

theorem Behind.rename (h : Behind x y) (f : ε → δ) : Behind (x.rename f) (y.rename f) := by
  intro s
  rw [Action.runOn_rename, Action.runOn_rename]
  rcases h s with ⟨⟨e, he⟩, hstore⟩ | hsame
  · refine Or.inl ⟨⟨f e, ?_⟩, hstore⟩
    rw [he]
    rfl
  · rw [← hsame]
    exact Or.inr rfl

/-- A program that looks, and then does what is behind a program. The first one must not write
(`hlook`), or the second might be refused after it. -/
theorem Behind.bind_look {f : α → Action (FaultyStore σ) ε β} {g : α → Action σ ε β}
    (hx : Behind x y) (hlook : ∀ s, (y.runOn s).2 = s) (hf : ∀ a, Behind (f a) (g a)) :
    Behind (x >>= f) (y >>= g) := by
  intro s
  have hfirst := hx s
  have hstore := hlook s.store
  rw [Action.runOn_bind, Action.runOn_bind]
  generalize x.runOn s = out at hfirst
  generalize y.runOn s.store = plain at hfirst hstore
  obtain ⟨o, s₁⟩ := out
  rcases hfirst with ⟨⟨e, he⟩, hleft⟩ | hsame
  · cases he
    exact Or.inl ⟨⟨e, rfl⟩, hleft⟩
  · subst hsame
    cases o with
    | error e => exact Or.inr rfl
    | ok a =>
      have hs₁ : s₁.store = s.store := hstore
      have hsecond := hf a s₁
      dsimp only
      rw [hs₁] at hsecond ⊢
      exact hsecond

theorem Behind.bind_pure (h : Behind x y) (f : α → β) :
    Behind (x >>= fun a => pure (f a)) (y >>= fun a => pure (f a)) := by
  intro s
  have hfirst := h s
  rw [Action.runOn_bind, Action.runOn_bind]
  generalize x.runOn s = out at hfirst
  generalize y.runOn s.store = plain at hfirst
  obtain ⟨o, s₁⟩ := out
  rcases hfirst with ⟨⟨e, he⟩, hleft⟩ | hsame
  · cases he
    exact Or.inl ⟨⟨e, rfl⟩, hleft⟩
  · subst hsame
    cases o <;> exact Or.inr rfl

theorem Behind.looks (h : Behind x y) (hy : ∀ s, (y.runOn s).2 = s) : Looks x := by
  intro s
  rcases h s with ⟨-, hleft⟩ | hsame
  · exact hleft
  · have hplain := hy s.store
    rw [← hsame] at hplain
    exact hplain

theorem Behind.atomic (h : Behind x y)
    (hy : ∀ s, (y.runOn s).2 = s ∨ ∃ a, (y.runOn s).1 = .ok a) : Atomic x := by
  intro s
  rcases h s with ⟨-, hleft⟩ | hsame
  · exact Or.inl hleft
  · have hplain := hy s.store
    rw [← hsame] at hplain
    exact hplain

end Programs

end FaultyStore
end AlertStatus
