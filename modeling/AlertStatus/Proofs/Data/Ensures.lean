import AlertStatus.Data.Action

/-!
# What an action ensures

`x.Ensures I Q` says what an action owes an invariant `I` of the state: from a state with `I` it ends
in a state with `I`, also when it fails, and a value that it gives satisfies `Q`. A failure takes
nothing back, so an invariant that is only kept by actions that succeed would be no invariant at all.
-/

set_option autoImplicit false

namespace AlertStatus
namespace Action

variable {σ ε δ α β : Type} {I : σ → Prop}

/-! ## 1. Which part of a program failed, and which succeeded -/

theorem runOn_bind_eq_error {x : Action σ ε α} {f : α → Action σ ε β} {s s' : σ} {e : ε}
    (h : (x >>= f).runOn s = (.error e, s')) :
    x.runOn s = (.error e, s') ∨
      ∃ a s₁, x.runOn s = (.ok a, s₁) ∧ (f a).runOn s₁ = (.error e, s') := by
  rw [runOn_bind] at h
  generalize x.runOn s = out at h
  obtain ⟨o, s₁⟩ := out
  cases o with
  | error e₁ =>
    cases h
    exact Or.inl rfl
  | ok a => exact Or.inr ⟨a, s₁, rfl, h⟩

/-- Two actions in a row that succeed have both succeeded. -/
theorem runOn_bind_eq_ok {x : Action σ ε α} {f : α → Action σ ε β} {s s' : σ} {b : β}
    (h : (x >>= f).runOn s = (.ok b, s')) :
    ∃ a s₁, x.runOn s = (.ok a, s₁) ∧ (f a).runOn s₁ = (.ok b, s') := by
  rw [runOn_bind] at h
  generalize x.runOn s = out at h
  obtain ⟨o, s₁⟩ := out
  cases o with
  | error e => cases h
  | ok a => exact ⟨a, s₁, rfl, h⟩

/-- What is made of the value afterwards is nothing to the state. -/
theorem snd_runOn_map (x : Action σ ε α) (f : α → β) (s : σ) :
    ((do return f (← x)).runOn s).2 = (x.runOn s).2 := by
  rw [runOn_bind]
  rcases x.runOn s with ⟨_ | _, _⟩ <;> rfl

theorem runOn_rename_eq_error {f : ε → δ} {x : Action σ ε α} {s s' : σ} {e : δ}
    (h : (x.rename f).runOn s = (.error e, s')) :
    ∃ cause, e = f cause ∧ x.runOn s = (.error cause, s') := by
  rw [runOn_rename] at h
  generalize x.runOn s = out at h
  obtain ⟨o, s₁⟩ := out
  cases o with
  | error cause =>
    cases h
    exact ⟨cause, rfl, rfl⟩
  | ok a => cases h

theorem runOn_rename_eq_ok {f : ε → δ} {x : Action σ ε α} {s s' : σ} {a : α}
    (h : (x.rename f).runOn s = (.ok a, s')) : x.runOn s = (.ok a, s') := by
  rw [runOn_rename] at h
  generalize x.runOn s = out at h
  obtain ⟨o, s₁⟩ := out
  cases o with
  | error cause => cases h
  | ok b =>
    cases h
    rfl

/-- A change that is refused leaves the state. -/
theorem runOn_become_or (f : σ → Except ε σ) (s : σ) :
    ((become f).runOn s).2 = s ∨ ((become f).runOn s).1 = .ok () := by
  rw [runOn_become]
  cases f s with
  | error e => exact Or.inl rfl
  | ok s' => exact Or.inr rfl

/-! ## 2. What every part ensures -/

/-- The action keeps `I`, and what it gives satisfies `Q`. It keeps `I` when it fails too, as the state
of a failure is the state from which a run goes on. -/
def Ensures (x : Action σ ε α) (I : σ → Prop) (Q : α → Prop) : Prop :=
  ∀ s, I s → I (x.runOn s).2 ∧ ∀ a, (x.runOn s).1 = .ok a → Q a

theorem Ensures.pure {a : α} {Q : α → Prop} (h : Q a) :
    Ensures (pure a : Action σ ε α) I Q := by
  rintro s hs
  refine ⟨hs, ?_⟩
  rintro b ⟨⟩
  exact h

theorem Ensures.fail (e : ε) (Q : α → Prop) : Ensures (Action.fail e : Action σ ε α) I Q :=
  fun _ hs => ⟨hs, nofun⟩

theorem Ensures.ofExcept {r : Except ε α} {Q : α → Prop} (h : ∀ a, r = .ok a → Q a) :
    Ensures (Action.ofExcept r : Action σ ε α) I Q :=
  fun _ hs => ⟨hs, h⟩

/-- **Two actions in a row**: the second has to keep `I` only for what the first may give. -/
theorem Ensures.bind {x : Action σ ε α} {f : α → Action σ ε β} {P : α → Prop} {Q : β → Prop}
    (hx : x.Ensures I P) (hf : ∀ a, P a → (f a).Ensures I Q) : (x >>= f).Ensures I Q := by
  intro s hs
  obtain ⟨hI, hP⟩ := hx s hs
  rw [runOn_bind]
  generalize x.runOn s = o at hI hP
  obtain ⟨r, s'⟩ := o
  cases r with
  | error e => exact ⟨hI, nofun⟩
  | ok a => exact hf a (hP a rfl) s' hI

/-- What follows may only use the value. -/
theorem Ensures.map {x : Action σ ε α} {P : α → Prop} (hx : x.Ensures I P) (f : α → β) :
    Ensures (do return f (← x)) I fun _ => True :=
  hx.bind fun _ _ => Ensures.pure trivial

theorem Ensures.rename {x : Action σ ε α} {Q : α → Prop} (h : x.Ensures I Q) (f : ε → δ) :
    (x.rename f).Ensures I Q := by
  intro s hs
  obtain ⟨hI, hQ⟩ := h s hs
  rw [runOn_rename]
  refine ⟨hI, fun a ha => hQ a ?_⟩
  dsimp only at ha
  cases hr : (x.runOn s).1 with
  | error e => rw [hr] at ha; cases ha
  | ok b =>
    rw [hr] at ha
    cases ha
    rfl

/-! ## 3. Runs -/

/-- The state after a list of commands, each of which may fail. -/
def runAll {κ : Type} (run : κ → Action σ ε α) (cs : List κ) (s : σ) : σ :=
  cs.foldl (fun s c => ((run c).runOn s).2) s

theorem runAll_append {κ : Type} (run : κ → Action σ ε α) (cs ds : List κ) (s : σ) :
    runAll run (cs ++ ds) s = runAll run ds (runAll run cs s) := List.foldl_append

/-- **A run keeps what each of its commands keeps.** -/
theorem runAll_ensures {κ : Type} {run : κ → Action σ ε α} {Q : α → Prop} (cs : List κ)
    (h : ∀ c ∈ cs, (run c).Ensures I Q) {s : σ} (hs : I s) : I (runAll run cs s) := by
  induction cs generalizing s with
  | nil => exact hs
  | cons c cs ih =>
    exact ih (fun d hd => h d (List.mem_cons_of_mem _ hd)) (h c List.mem_cons_self s hs).1

end Action
end AlertStatus
