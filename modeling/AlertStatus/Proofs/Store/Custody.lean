import AlertStatus.Proofs.Store.Archiving

/-!
# What is kept under a routing key

`Custody` says two things of a store: what holds of the live record of one routing key, and of every
entry that was added under the key since an earlier point. Few operations concern it. One outside the
key leaves it, whatever the operation does (`ensures_outside`). An operator's mark or a status is a
partial update of the live record (`ensures_updateEvent`). And an event of the key is merged into the
live record, with a copy for the log (`Custody.gives_archived`).
-/

set_option autoImplicit false

namespace AlertStatus

open AlertStatus.Action

/-- The region of one routing key. -/
def Region.ofKey (rk : String) : Region := ⟨fun _ => False, fun j => j = rk⟩

/-- An action that always gives a value and keeps `I` ensures it. -/
theorem Action.ensures_of_gives {σ ε α : Type} {I : σ → Prop} {x : Action σ ε α}
    (h : ∀ s, I s → x.Gives s fun _ s' => I s') : x.Ensures I fun _ => True := by
  intro s hs
  obtain ⟨a, s', hrun, hI⟩ := h s hs
  rw [hrun]
  exact ⟨hI, fun _ _ => trivial⟩

namespace Backend

variable {b₀ b b' : Backend} {rk : String} {P : Event → Prop} {Q : LogEntry → Prop}

/-- The live record of the key satisfies `P`, and since the store was `b₀` the entries that were added
under the key satisfy `Q`. What stands under other keys, and what the log had before, is left open. -/
structure Custody (b₀ : Backend) (rk : String) (P : Event → Prop) (Q : LogEntry → Prop) (b : Backend) :
    Prop where
  live : ∃ e, b.eventAt rk = .ok (some e) ∧ P e
  log : ∃ l, Added rk l b₀ b ∧ ∀ d ∈ l, Q d

theorem custody_self {e : Event} (he : b.eventAt rk = .ok (some e)) (hP : P e) : Custody b rk P Q b :=
  ⟨⟨e, he, hP⟩, [], added_nil rfl rfl, fun _ hd => nomatch hd⟩

theorem Custody.medium (h : Custody b₀ rk P Q b) : b.medium = b₀.medium := by
  obtain ⟨l, hl, -⟩ := h.log
  exact hl.medium

/-! ## 1. Operations outside the key -/

theorem Custody.of_shared (h : Custody b₀ rk P Q b) (hs : (Region.ofKey rk).Shared b' b) :
    Custody b₀ rk P Q b' := by
  obtain ⟨l, hl, hQ⟩ := h.log
  refine ⟨?_, l, ⟨hs.medium.trans hl.medium, (hs.rows rk rfl).trans hl.rows⟩, hQ⟩
  rw [hs.events rk rfl]
  exact h.live

/-- **An operation that leaves the region of the key** leaves what is kept there. It is asked to leave
what any store shares with it (`h`), and the store before the operation is one of those. -/
theorem ensures_outside {ε α : Type} {x : Action Backend ε α} {R : α → Prop}
    (h : ∀ d, x.Ensures (fun b => (Region.ofKey rk).Shared b d) R) :
    x.Ensures (Custody b₀ rk P Q) R := by
  intro b hb
  obtain ⟨hshared, hR⟩ := h b b (Region.Shared.refl _ b)
  exact ⟨hb.of_shared hshared, hR⟩

/-- The operations on all entities and on other keys leave it. -/
theorem linked_outside_key (rk : String) (d : Backend) :
    Linked (fun b b' => b = b' ∧ (Region.ofKey rk).Shared b d) (fun _ => True) (fun j => j ≠ rk)
      fun _ => True := by
  have h := (Region.ofKey rk).linked_outside d
  exact { h with
    getStatus := fun id _ => h.getStatus id not_false
    putStatus := fun id r _ => h.putStatus id r not_false }

theorem ensures_getEvent (j : String) :
    (Store.getEvent j).Ensures (Custody b₀ rk P Q) fun _ => True := by
  intro b hb
  rw [runOn_getEvent]
  exact ⟨hb, fun _ _ => trivial⟩

theorem ensures_getLog (j : String) :
    (Store.getLog j).Ensures (Custody b₀ rk P Q) fun _ => True := by
  intro b hb
  cases b <;> exact ⟨hb, fun _ _ => trivial⟩

/-! ## 2. Updates of the live record -/

/-- The property endures what is written to a live record besides events and acknowledgements: that its
document is read back with other fields of its own, a cancellation and its end, a status. -/
structure Enduring (P : Event → Prop) : Prop where
  extra : ∀ e x, P e → P { e with extra := x }
  cancel : ∀ e c s, P e → P { e with cancel := c, status := some s }
  status : ∀ e s, P e → P { e with status := some s }

section Updates

variable (hP : Enduring P)

include hP

/-- **A partial update** keeps what is kept, if it does so where it concerns the key (`hu`). It has to
leave the extra fields there, so that the store keeps the updated event as it kept the one before. -/
theorem ensures_updateEvent {change : Fields} (j : String)
    (hu : j = rk → ∀ e, P e → ∃ d, e.update? change = some d ∧ d.extra = e.extra ∧ P d) :
    (Store.updateEvent j change).Ensures (Custody b₀ rk P Q) fun _ => True := by
  by_cases hj : j = rk
  · subst hj
    refine fun b hb => ⟨?_, fun _ _ => trivial⟩
    obtain ⟨e, he, hPe⟩ := hb.live
    obtain ⟨l, hl, hQ⟩ := hb.log
    obtain ⟨d, hd, hx, hPd⟩ := hu rfl e hPe
    obtain ⟨x, hgives, -⟩ := ((keeps_of_eventAt he).of_extra hx).gives
    rw [runOn_updateEvent he hd]
    refine ⟨⟨_, ?_, hP.extra d x hPd⟩, l, ⟨?_, ?_⟩, hQ⟩
    · rw [eventAt_putEvent hgives, if_pos rfl]
    · exact (medium_putEvent b j d).trans hl.medium
    · exact (rowsAt_putEvent b j j d).trans hl.rows
  · refine ensures_outside fun d => Matches.ensures ?_
    exact (linked_outside_key rk d).updateEvent j change hj fun _ _ _ _ => trivial

theorem ensures_setStatus (j : String) (s : Status) :
    (Archive.setStatus j s).Ensures (Custody b₀ rk P Q) fun _ => True :=
  ensures_updateEvent hP j fun _ e h => ⟨_, e.update?_status s, rfl, hP.status e s h⟩

theorem ensures_markCanceled (j : String) (c : Remark) :
    (Archive.markCanceled j c).Ensures (Custody b₀ rk P Q) fun _ => True :=
  ensures_updateEvent hP j fun _ e h => ⟨_, e.update?_cancel c .canceled, rfl, hP.cancel e _ _ h⟩

theorem ensures_markUncanceled (j : String) (s : Status) :
    (Archive.markUncanceled j s).Ensures (Custody b₀ rk P Q) fun _ => True :=
  ensures_updateEvent hP j fun _ e h => ⟨_, e.update?_uncancel s, rfl, hP.cancel e _ _ h⟩

theorem ensures_acknowledge (j : String) (hack : j = rk → ∀ e a, P e → P { e with ack := a })
    (a : Remark) : (Archive.acknowledge j a).Ensures (Custody b₀ rk P Q) fun _ => True :=
  ensures_updateEvent hP j fun hj e h => ⟨_, e.update?_ack a, rfl, hack hj e _ h⟩

theorem ensures_removeAck (j : String) (hack : j = rk → ∀ e a, P e → P { e with ack := a }) :
    (Archive.removeAck j).Ensures (Custody b₀ rk P Q) fun _ => True :=
  ensures_updateEvent hP j fun hj e h => ⟨_, e.update?_removeAck, rfl, hack hj e _ h⟩

end Updates

/-! ## 3. Events -/

/-- **An event of the key** is merged into the live record that is kept, and adds no entry but its
copy. The store has to keep the event (`hkeeps`); then it keeps the merged record, whose extra fields
are those of the event and of the live record. -/
theorem Custody.gives_archived (h : Custody b₀ rk P Q b) (a : Archive) (now : Instant) {ev : Event}
    (hrk : ev.routingKey = rk) (hkeeps : b₀.medium.Keeps ev) :
    (a.process now ev).Gives b fun _ b' => ∃ prior d x, P prior ∧
      prior.update? ((ev.arriving prior now).changeOf a.excluded prior) = some d ∧
      b'.eventAt rk = .ok (some { d with extra := x }) ∧
      ∃ l, Added rk l b₀ b' ∧ ∀ c ∈ l, Q c ∨ c = ev.copy prior now := by
  subst hrk
  obtain ⟨prior, hprior, hPprior⟩ := h.live
  obtain ⟨l, hl, hQ⟩ := h.log
  rw [← h.medium] at hkeeps
  obtain ⟨d, hd, hgives⟩ := Backend.gives_archived a now hprior
  refine hgives.weaken fun added b' harchived => ?_
  obtain ⟨x, hlive⟩ := harchived.live hprior hd hkeeps
  refine ⟨prior, d, x, hPprior, hd, hlive, _, hl.trans harchived.entries, fun c hc => ?_⟩
  rcases List.mem_append.mp hc with hc | hc
  · exact Or.inl (hQ c hc)
  · cases added with
    | true => exact Or.inr (List.mem_singleton.mp hc)
    | false => cases hc

/-- An event of another key leaves what is kept. -/
theorem ensures_process_of_ne (a : Archive) (now : Instant) {ev : Event} (hrk : ev.routingKey ≠ rk) :
    (a.process now ev).Ensures (Custody b₀ rk P Q) fun _ => True :=
  ensures_outside fun d => ((linked_outside_key rk d).archive a now hrk fun _ _ _ => trivial).ensures

end Backend
end AlertStatus
