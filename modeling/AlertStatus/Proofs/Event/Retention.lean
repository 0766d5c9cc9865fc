import AlertStatus.Proofs.Event.Merging

/-!
# What operators set on a live record

An acknowledgement stays on a live record until the entity is off, a cancellation until it is off or
ongoing. What an event that is off takes away goes by the live record alone, so what such an event brings
itself is written where the live record had nothing (`known_merged_of_off`).

A pinned state is left by every event that is not healthy, with its output, and released by the next one
that is (`PinnedAt.merged`, `PinnedAt.released`).
-/

set_option autoImplicit false

namespace AlertStatus
namespace Event

variable {excluded : List String} {e prior d : Event} {k : String}

/-! ## 1. Acknowledgements and cancellations -/

/-- What the event does not have is not among the differences. -/
theorem get?_differences_of_none (excluded : List String) (prior : Event)
    (hk : k ∈ eventFieldNames) (he : e.known k = none) :
    (differences excluded e prior).get? k = none := by
  rw [get?_differences, get?_toFields_of_known e hk, he]
  rfl

/-- A field of which the change says no more than whether it is dropped. -/
theorem known_merged_of_drop (h : prior.update? (e.changeOf excluded prior) = some d)
    (hk : k ∈ eventFieldNames) {drop : Prop} [Decidable drop]
    (hc : (e.changeOf excluded prior).get? k = if drop then some .null else none) :
    d.known k = if drop then none else prior.known k := by
  by_cases hdrop : drop
  · rw [if_pos hdrop] at hc ⊢
    rw [known_of_update? h hk, patch_of_some hc, if_pos rfl]
  · rw [if_neg hdrop] at hc ⊢
    exact known_merged_of_none h hk hc

/-- **An acknowledgement stays until the entity is off**, whatever the event brings. That the live
record has one (`hp`) is what the rule looks at; where it has none the event's is taken
(`known_merged_of_off`). -/
theorem ack_merged_of_some (h : prior.update? (e.changeOf excluded prior) = some d) {a : Remark}
    (hp : prior.ack = some a) :
    d.ack = if e.effectiveStatus = .off then none else some a := by
  have hchange := get?_changeOf_ack excluded e prior
  rw [hp, if_pos (Option.isSome_some (a := a))] at hchange
  refine encodingRemark.map_injective ((known_merged_of_drop h (by decide) hchange).trans ?_)
  split
  · rfl
  · exact congrArg (Option.map Remark.toJson) hp

/-- **A cancellation stays until the entity is off or ongoing**, whatever the event brings. As for an
acknowledgement, the rule asks whether the live record has one (`hp`). -/
theorem cancel_merged_of_some (h : prior.update? (e.changeOf excluded prior) = some d) {c : Remark}
    (hp : prior.cancel = some c) :
    d.cancel =
      if e.effectiveStatus = .off ∨ e.effectiveStatus = .ongoing then none else some c := by
  have hchange := get?_changeOf_cancel excluded e prior
  rw [hp, if_pos (Option.isSome_some (a := c))] at hchange
  refine encodingRemark.map_injective ((known_merged_of_drop h (by decide) hchange).trans ?_)
  split
  · rfl
  · exact congrArg (Option.map Remark.toJson) hp

/-- The same law for an event that brings no cancellation, whether there was one or not. -/
theorem cancel_merged (h : prior.update? (e.changeOf excluded prior) = some d)
    (he : e.cancel = none) :
    d.cancel =
      if e.effectiveStatus = .off ∨ e.effectiveStatus = .ongoing then none else prior.cancel := by
  cases hp : prior.cancel with
  | some c => exact cancel_merged_of_some h hp
  | none =>
    have hchange : (e.changeOf excluded prior).get? "cancel" = none := by
      rw [get?_changeOf_cancel, hp, if_neg (by simp)]
      exact get?_differences_of_none excluded prior (by decide)
        (congrArg (Option.map Remark.toJson) he)
    have hsame : d.cancel = prior.cancel :=
      encodingRemark.map_injective (known_merged_of_none h (by decide) hchange)
    rw [hsame, hp, ite_self]

/-! ## 2. Events that are off -/

/-- The fields that an event that is off takes from a live record. -/
def clearedFields : List String := "ack" :: "cancel" :: ticketFields

theorem clearedFields_subset : clearedFields ⊆ eventFieldNames := by
  intro k hk
  fin_cases hk <;> decide

/-- An event that is off takes away what the live record has, and changes the rest by the differences
alone. -/
theorem get?_changeOf_of_off (excluded : List String) (prior : Event) (hk : k ∈ clearedFields)
    (hoff : e.effectiveStatus = .off) :
    (e.changeOf excluded prior).get? k =
      if (prior.known k).isSome then some .null else (differences excluded e prior).get? k := by
  rcases List.mem_cons.mp hk with rfl | hk'
  · have hack : (prior.known "ack").isSome = prior.ack.isSome := Option.isSome_map
    rw [get?_changeOf_ack, if_pos hoff, hack]
  rcases List.mem_cons.mp hk' with rfl | hticket
  · have hcancel : (prior.known "cancel").isSome = prior.cancel.isSome := Option.isSome_map
    rw [get?_changeOf_cancel, if_pos (Or.inl hoff), hcancel]
  · rw [get?_changeOf_ticket excluded e prior hticket, SortedMap.contains,
      get?_toFields_of_known prior (clearedFields_subset hk)]
    simp only [hoff, true_and]

/-- **What an event that is off leaves of these fields** is what it brings itself where the live record
had nothing and the field is not excluded. The status that counts is the effective one (`hoff`): that
of the event, or the one that its state stands for. -/
theorem known_merged_of_off (h : prior.update? (e.changeOf excluded prior) = some d)
    (hk : k ∈ clearedFields) (hoff : e.effectiveStatus = .off) :
    d.known k = if (prior.known k).isSome ∨ k ∈ excluded then none else e.known k := by
  have hc := get?_changeOf_of_off excluded prior hk hoff
  cases hp : prior.known k with
  | some v =>
    rw [hp] at hc
    rw [known_of_update? h (clearedFields_subset hk), patch_of_some hc]
    simp
  | none =>
    rw [hp] at hc
    rw [known_merged_of_differences h (clearedFields_subset hk) hc, hp]
    by_cases hx : k ∈ excluded
    · simp [hx]
    · cases e.known k <;> simp [hx, Option.filter_some]

/-- So an event that brings nothing of the field leaves nothing of it. -/
theorem known_merged_of_off_of_none (h : prior.update? (e.changeOf excluded prior) = some d)
    (hk : k ∈ clearedFields) (hoff : e.effectiveStatus = .off) (he : e.known k = none) :
    d.known k = none := by
  rw [known_merged_of_off h hk hoff, he, ite_self]

/-! ## 3. Pinned states -/

/-- The event is pinned, with this state and this output. -/
structure PinnedAt (e : Event) (s : CheckState) (o : Option String) : Prop where
  keepState : e.keepState = some true
  state : e.state = s
  output : e.output = o

variable {s : CheckState} {o : Option String}

/-- The rules for the fields above leave all others to the rule for pinned states. -/
theorem exists_changePinned (excluded : List String) (e prior : Event) :
    ∃ c : Fields, e.changeOf excluded prior = changePinned e prior c ∧
      ∀ k, k ∉ clearedFields → c.get? k = (differences excluded e prior).get? k := by
  refine ⟨_, rfl, fun k hk => ?_⟩
  obtain ⟨hack, hcancel, hticket⟩ : k ≠ "ack" ∧ k ≠ "cancel" ∧ k ∉ ticketFields := by
    simpa [clearedFields] using hk
  rw [get?_changeTicket, if_neg fun h => hticket h.2.1, get?_changeCancel_of_ne _ hcancel,
    get?_changeAck_of_ne _ hack]

/-- **A pinned state holds**, with its output, through an event that is not healthy (`hs`) and does not
unpin it (`he`). Which fields are excluded does not matter: the rule comes last, sets the state to that
of the live record and takes the output out of the change. -/
theorem PinnedAt.merged (hp : prior.PinnedAt s o)
    (h : prior.update? (e.changeOf excluded prior) = some d) (he : e.keepState = none)
    (hs : e.state ≠ .ok) : d.PinnedAt s o := by
  obtain ⟨hpin, rfl, rfl⟩ := hp
  obtain ⟨c, hchange, hc⟩ := exists_changePinned excluded e prior
  have hheld : changePinned e prior c =
      (c.insert "state" (.ofCheckState prior.state)).erase "output" := by
    unfold changePinned isAlert
    simp [he, hpin, hs]
  rw [hheld] at hchange
  have hkeep : (e.changeOf excluded prior).get? "keep_state" = none := by
    have hnone : e.known "keep_state" = none := congrArg (Option.map Json.bool) he
    rw [hchange, SortedMap.get?_erase, if_neg (by decide), SortedMap.get?_insert, if_neg (by decide),
      hc _ (by decide)]
    exact get?_differences_of_none excluded prior (by decide) hnone
  have hstate : (e.changeOf excluded prior).get? "state" = some (.ofCheckState prior.state) := by
    rw [hchange, SortedMap.get?_erase, if_neg (by decide), SortedMap.get?_insert, if_pos rfl]
  have houtput : (e.changeOf excluded prior).get? "output" = none := by
    rw [hchange, SortedMap.get?_erase, if_pos rfl]
  refine ⟨?_, ?_, ?_⟩
  · rw [← hpin]
    exact encodingFlag.map_injective (known_merged_of_none h (by decide) hkeep)
  · have hknown := known_of_update? (k := "state") h (by decide)
    rw [patch_of_some hstate] at hknown
    exact encodingCheckState.injective (Option.some.inj hknown)
  · exact encodingText.map_injective (known_merged_of_none h (by decide) houtput)

/-- **The next healthy event releases it**, and shows itself where it may: the state of the live record
is the event's, unless the state is excluded. -/
theorem PinnedAt.released (hp : prior.PinnedAt s o)
    (h : prior.update? (e.changeOf excluded prior) = some d) (he : e.keepState = none)
    (hs : e.state = .ok) :
    d.keepState = some false ∧ d.state = if "state" ∈ excluded then s else .ok := by
  obtain ⟨hpin, rfl, rfl⟩ := hp
  obtain ⟨c, hchange, hc⟩ := exists_changePinned excluded e prior
  have hreleased : changePinned e prior c = c.insert "keep_state" (.bool false) := by
    unfold changePinned isAlert
    simp [he, hpin, hs]
  rw [hreleased] at hchange
  constructor
  · have hkeep := known_of_update? (k := "keep_state") h (by decide)
    rw [hchange, patch_of_some ((SortedMap.get?_insert c _ _ _).trans (if_pos rfl))] at hkeep
    exact encodingFlag.map_injective hkeep
  · have hdiff : (e.changeOf excluded prior).get? "state" =
        (differences excluded e prior).get? "state" := by
      rw [hchange, SortedMap.get?_insert, if_neg (by decide), hc "state" (by decide)]
    by_cases hx : "state" ∈ excluded
    · have hnone : (differences excluded e prior).get? "state" = none := by
        rw [get?_differences, Option.filter_eq_none_iff]
        simp [hx]
      rw [if_pos hx]
      exact encodingCheckState.injective
        (Option.some.inj (known_merged_of_none h (by decide) (hdiff.trans hnone)))
    · rw [if_neg hx, ← hs]
      exact Option.some.inj (field_merged "state" (fun d => some d.state) encodingCheckState
        (fun _ _ => eq_of_same_int) (fun _ => rfl) h (by decide) hx hdiff)

end Event
end AlertStatus
