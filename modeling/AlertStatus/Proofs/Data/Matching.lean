import AlertStatus.Proofs.Data.Ensures

/-!
# Two actions side by side

`x.Matches R y Q` compares an action with another one, perhaps on a state of another type. From related
states both come to the same outcome and leave related states, and a value that they give satisfies `Q`.
A program that is put together of matching parts matches, so a relation between states has to be looked
at once for each operation that the programs use.

An invariant is the case in which the two states are the same one (`Matches.ensures`).
-/

set_option autoImplicit false

namespace AlertStatus
namespace Action

variable {σ τ ε δ α β : Type} {R : σ → τ → Prop}

/-- From related states the actions come to one outcome and leave related states; a value that they give
satisfies `Q`. -/
def Matches (R : σ → τ → Prop) (x : Action σ ε α) (y : Action τ ε α) (Q : α → Prop) : Prop :=
  ∀ s t, R s t → (x.runOn s).1 = (y.runOn t).1 ∧ R (x.runOn s).2 (y.runOn t).2 ∧
    ∀ a, (x.runOn s).1 = .ok a → Q a

/-- The same for computations that cannot fail. -/
def Agree (R : σ → τ → Prop) (f : σ → α × σ) (g : τ → α × τ) : Prop :=
  ∀ s t, R s t → (f s).1 = (g t).1 ∧ R (f s).2 (g t).2

section Programs

variable {x : Action σ ε α} {y : Action τ ε α} {P Q : α → Prop}

theorem Matches.pure {a : α} (h : Q a) :
    Matches R (pure a : Action σ ε α) (pure a : Action τ ε α) Q := by
  intro s t hst
  refine ⟨rfl, hst, ?_⟩
  rintro b ⟨⟩
  exact h

theorem Matches.done (a : α) :
    Matches R (Pure.pure a : Action σ ε α) (Pure.pure a : Action τ ε α) fun _ => True :=
  Matches.pure trivial

theorem Matches.fail (e : ε) (Q : α → Prop) :
    Matches R (Action.fail e : Action σ ε α) (Action.fail e : Action τ ε α) Q :=
  fun _ _ hst => ⟨rfl, hst, nofun⟩

theorem Matches.ofExcept {r : Except ε α} (h : ∀ a, r = .ok a → Q a) :
    Matches R (Action.ofExcept r : Action σ ε α) (Action.ofExcept r : Action τ ε α) Q :=
  fun _ _ hst => ⟨rfl, hst, h⟩

theorem Matches.weaken (h : Matches R x y P) (hPQ : ∀ a, P a → Q a) : Matches R x y Q := by
  intro s t hst
  obtain ⟨heq, hR, hP⟩ := h s t hst
  exact ⟨heq, hR, fun a ha => hPQ a (hP a ha)⟩

/-- **Two actions in a row**: the second ones are compared for the values that the first ones give.
After a failure they are not run on either side, as both fail alike. -/
theorem Matches.bind {f : α → Action σ ε β} {g : α → Action τ ε β} {Q : β → Prop}
    (h : Matches R x y P) (hf : ∀ a, P a → Matches R (f a) (g a) Q) :
    Matches R (x >>= f) (y >>= g) Q := by
  intro s t hst
  obtain ⟨heq, hR, hP⟩ := h s t hst
  rw [runOn_bind, runOn_bind]
  generalize x.runOn s = out at heq hR hP
  generalize y.runOn t = out' at heq hR
  obtain ⟨o, s'⟩ := out
  obtain ⟨o', t'⟩ := out'
  cases heq
  cases o with
  | error e => exact ⟨rfl, hR, nofun⟩
  | ok a => exact hf a (hP a rfl) s' t' hR

/-- What follows may only use the value. -/
theorem Matches.map (h : Matches R x y P) (f : α → β) :
    Matches R (do return f (← x)) (do return f (← y)) fun _ => True :=
  h.bind fun _ _ => Matches.done _

theorem Matches.rename (h : Matches R x y Q) (f : ε → δ) :
    Matches R (x.rename f) (y.rename f) Q := by
  intro s t hst
  obtain ⟨heq, hR, hQ⟩ := h s t hst
  rw [runOn_rename, runOn_rename, ← heq]
  refine ⟨rfl, hR, fun a ha => hQ a ?_⟩
  generalize (x.runOn s).1 = o at ha ⊢
  cases o with
  | error e => cases ha
  | ok b =>
    cases ha
    rfl

theorem Matches.attempt (h : Matches R x y Q) :
    Matches R (x.attempt : Action σ δ (Except ε α)) (y.attempt : Action τ δ (Except ε α))
      fun _ => True := by
  intro s t hst
  obtain ⟨heq, hR, -⟩ := h s t hst
  exact ⟨congrArg Except.ok heq, hR, fun _ _ => trivial⟩

theorem Matches.total {f : σ → α × σ} {g : τ → α × τ} (h : Agree R f g) :
    Matches R (Action.total f : Action σ ε α) (Action.total g : Action τ ε α) fun _ => True := by
  intro s t hst
  obtain ⟨heq, hR⟩ := h s t hst
  exact ⟨congrArg Except.ok heq, hR, fun _ _ => trivial⟩

theorem Matches.change {f : σ → σ} {g : τ → τ} (h : ∀ s t, R s t → R (f s) (g t)) :
    Matches R (Action.change f : Action σ ε Unit) (Action.change g : Action τ ε Unit)
      fun _ => True :=
  fun s t hst => ⟨rfl, h s t hst, fun _ _ => trivial⟩

end Programs

/-- Where the states that are related are one and the same, what matches keeps what is said of it. -/
theorem Matches.ensures {I : σ → Prop} {x : Action σ ε α} {Q : α → Prop}
    (h : Matches (fun s t => s = t ∧ I s) x x Q) : x.Ensures I Q := by
  intro s hs
  obtain ⟨-, ⟨-, hI⟩, hQ⟩ := h s s ⟨rfl, hs⟩
  exact ⟨hI, hQ⟩

/-- **An operation that keeps an invariant** matches itself. -/
theorem Ensures.matches {I : σ → Prop} {x : Action σ ε α} {Q : α → Prop} (h : x.Ensures I Q) :
    Matches (fun s t => s = t ∧ I s) x x Q := by
  rintro s t ⟨rfl, hs⟩
  obtain ⟨hI, hQ⟩ := h s hs
  exact ⟨rfl, ⟨rfl, hI⟩, hQ⟩

/-! ## Runs -/

/-- The commands of a run with their outcomes. -/
def trace {κ : Type} (run : κ → Action σ ε α) : List κ → σ → List (κ × Except ε α)
  | [], _ => []
  | c :: cs, s => (c, ((run c).runOn s).1) :: trace run cs ((run c).runOn s).2

/-- **Commands that the other state does not see** may be left out of a run: those that are kept match
(`hin`), and all others change their own state only (`hout`), so what is kept comes to the same
outcomes. -/
theorem Matches.trace_filter {κ : Type} {run : κ → Action σ ε α} {run' : κ → Action τ ε α}
    (kept : κ → Bool) (cs : List κ)
    (hin : ∀ c ∈ cs, kept c = true → Matches R (run c) (run' c) fun _ => True)
    (hout : ∀ c ∈ cs, kept c = false → ∀ t, (run c).Ensures (fun s => R s t) fun _ => True)
    {s : σ} {t : τ} (hst : R s t) :
    (trace run cs s).filter (fun x => kept x.1) = trace run' (cs.filter kept) t ∧
      R (runAll run cs s) (runAll run' (cs.filter kept) t) := by
  induction cs generalizing s t with
  | nil => exact ⟨rfl, hst⟩
  | cons c cs ih =>
    have hrest := @ih (fun d hd => hin d (List.mem_cons_of_mem _ hd))
      fun d hd => hout d (List.mem_cons_of_mem _ hd)
    cases hc : kept c with
    | true =>
      obtain ⟨heq, hR, -⟩ := hin c List.mem_cons_self hc s t hst
      obtain ⟨htrace, hlast⟩ := hrest hR
      simp only [trace, List.filter_cons, hc, if_true, heq, htrace]
      exact ⟨trivial, hlast⟩
    | false =>
      obtain ⟨htrace, hlast⟩ := hrest (hout c List.mem_cons_self hc t s hst).1
      simp only [trace, List.filter_cons, hc, Bool.false_eq_true, if_false]
      exact ⟨htrace, hlast⟩

end Action
end AlertStatus
