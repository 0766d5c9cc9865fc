import AlertStatus.Data.Action

/-!
# All or nothing

A failure takes nothing back, so an action that writes twice may fail half-way. `x.AllOrNothing s Q`
says that from the state `s` it does not: it is refused and leaves `s`, or it gives a value, and then
`Q` holds of that and of the state. Two actions in a row are all or nothing if the first only looks, or
if the second cannot fail after what the first has done (`Gives`).
-/

set_option autoImplicit false

namespace AlertStatus
namespace Action

variable {σ ε δ α β : Type} {x : Action σ ε α} {s : σ}

/-- From `s` the action gives a value, and `Q` holds of that and of the state it leaves. -/
def Gives (x : Action σ ε α) (s : σ) (Q : α → σ → Prop) : Prop :=
  ∃ a s', x.runOn s = (.ok a, s') ∧ Q a s'

/-- From `s` the action is refused and leaves `s`, or it gives a value as above. -/
def AllOrNothing (x : Action σ ε α) (s : σ) (Q : α → σ → Prop) : Prop :=
  (∃ e, x.runOn s = (.error e, s)) ∨ x.Gives s Q

/-! ## 1. Actions that give a value -/

theorem gives_pure {a : α} {Q : α → σ → Prop} (h : Q a s) : (pure a : Action σ ε α).Gives s Q :=
  ⟨a, s, rfl, h⟩

theorem gives_look (f : σ → α) (s : σ) :
    (look f : Action σ ε α).Gives s fun a s' => s' = s ∧ a = f s :=
  ⟨f s, s, rfl, rfl, rfl⟩

theorem gives_change (f : σ → σ) (s : σ) :
    (change f : Action σ ε Unit).Gives s fun _ s' => s' = f s :=
  ⟨(), f s, rfl, rfl⟩

theorem gives_attempt (x : Action σ ε α) (s : σ) :
    (x.attempt : Action σ δ (Except ε α)).Gives s fun _ _ => True :=
  ⟨_, _, rfl, trivial⟩

theorem Gives.weaken {P Q : α → σ → Prop} (h : x.Gives s P) (hPQ : ∀ a s', P a s' → Q a s') :
    x.Gives s Q := by
  obtain ⟨a, s', hrun, hP⟩ := h
  exact ⟨a, s', hrun, hPQ a s' hP⟩

theorem Gives.rename {Q : α → σ → Prop} (h : x.Gives s Q) (f : ε → δ) : (x.rename f).Gives s Q := by
  obtain ⟨a, s', hrun, hQ⟩ := h
  refine ⟨a, s', ?_, hQ⟩
  rw [runOn_rename, hrun]
  rfl

theorem Gives.bind {f : α → Action σ ε β} {P : α → σ → Prop} {Q : β → σ → Prop}
    (hx : x.Gives s P) (hf : ∀ a s', P a s' → (f a).Gives s' Q) : (x >>= f).Gives s Q := by
  obtain ⟨a, s', hrun, hP⟩ := hx
  obtain ⟨b, s'', hrun', hQ⟩ := hf a s' hP
  refine ⟨b, s'', ?_, hQ⟩
  rw [runOn_bind, hrun]
  exact hrun'

/-! ## 2. Actions that may be refused -/

theorem Gives.allOrNothing {Q : α → σ → Prop} (h : x.Gives s Q) : x.AllOrNothing s Q := Or.inr h

theorem allOrNothing_fail (e : ε) (s : σ) (Q : α → σ → Prop) :
    (fail e : Action σ ε α).AllOrNothing s Q :=
  Or.inl ⟨e, rfl⟩

theorem allOrNothing_ofExcept (r : Except ε α) (s : σ) :
    (ofExcept r).AllOrNothing s fun a s' => s' = s ∧ r = .ok a := by
  cases r with
  | error e => exact Or.inl ⟨e, rfl⟩
  | ok a => exact Or.inr ⟨a, s, rfl, rfl, rfl⟩

theorem AllOrNothing.rename {Q : α → σ → Prop} (h : x.AllOrNothing s Q) (f : ε → δ) :
    (x.rename f).AllOrNothing s Q := by
  rcases h with ⟨e, hrun⟩ | hgives
  · refine Or.inl ⟨f e, ?_⟩
    rw [runOn_rename, hrun]
    rfl
  · exact Or.inr (hgives.rename f)

/-- After an action that may have written, what follows must not fail. -/
theorem AllOrNothing.bind {f : α → Action σ ε β} {P : α → σ → Prop} {Q : β → σ → Prop}
    (hx : x.AllOrNothing s P) (hf : ∀ a s', P a s' → (f a).Gives s' Q) :
    (x >>= f).AllOrNothing s Q := by
  rcases hx with ⟨e, hrun⟩ | hgives
  · refine Or.inl ⟨e, ?_⟩
    rw [runOn_bind, hrun]
  · exact Or.inr (hgives.bind hf)

/-- After an action that only looks, what follows may still be refused. -/
theorem AllOrNothing.bind_look {f : α → Action σ ε β} {P : α → Prop} {Q : β → σ → Prop}
    (hx : x.AllOrNothing s fun a s' => s' = s ∧ P a) (hf : ∀ a, P a → (f a).AllOrNothing s Q) :
    (x >>= f).AllOrNothing s Q := by
  rcases hx with ⟨e, hrun⟩ | ⟨a, s', hrun, rfl, hP⟩
  · refine Or.inl ⟨e, ?_⟩
    rw [runOn_bind, hrun]
  · unfold AllOrNothing Gives
    rw [runOn_bind, hrun]
    exact hf a hP

end Action
end AlertStatus
