import AlertStatus.Proofs.Engine.Lossless
import AlertStatus.Proofs.Event.Retention

/-!
# What a live record has taken in

When an event is merged a second time, it is stamped with what the live record remembers of the first.
So it is to be shown that nothing of the stamped event is new to the record. `Event.Absorbed` is what the
first merge leaves for that: the record has what the event brings, and nothing is left in it that the
rules for operators would take away. After that a merge changes no known field (`get?_changeOf_again`),
and no extra one but for a null that is nowhere, or a number that counts as another one.

This is about plain checks. An event that brings what a live record remembers, or what operators set, can
be new to the record that it made.
-/

set_option autoImplicit false

namespace AlertStatus

/-! ## 1. Values that count as the same -/

namespace Json

theorem sameNumber_refl (n : Number) : n.same n = true := by
  cases n with
  | int i => exact decide_eq_true rfl
  | float x =>
    show (decide (x = x) || _) = true
    rw [decide_eq_true rfl, Bool.true_or]

mutual

theorem same_refl : ∀ v : Json, v.same v = true
  | .null => rfl
  | .bool b => beq_self_eq_true b
  | .num n => sameNumber_refl n
  | .str s => beq_self_eq_true s
  | .arr items => sameItems_refl items
  | .obj members => sameMembers_refl members

theorem sameItems_refl : ∀ vs : List Json, eqItemsBy Number.same vs vs = true
  | [] => rfl
  | v :: vs => by
    rw [eqItemsBy, show eqBy _ v v = true from same_refl v, sameItems_refl vs, Bool.and_self]

theorem sameMembers_refl :
    ∀ ms : List (String × Json), eqMembersBy Number.same ms ms = true
  | [] => rfl
  | (k, v) :: ms => by
    rw [eqMembersBy, show eqBy _ v v = true from same_refl v, sameMembers_refl ms, beq_self_eq_true,
      Bool.and_self, Bool.and_self]

end

mutual

/-- Only binary numbers count as the same without being equal. -/
theorem eq_of_same_of_plain : ∀ {w v : Json}, v.plain = true → w.same v = true → w = v
  | w, .null, _, h => by
    cases w <;> first | rfl | cases h
  | w, .bool b, _, h => by
    cases w with
    | bool a => exact congrArg Json.bool (beq_iff_eq.mp h)
    | _ => cases h
  | w, .num (.int i), _, h => by
    match w, h with
    | .num (.int j), h => exact congrArg (fun i => Json.num (.int i)) (of_decide_eq_true h)
  | w, .str s, _, h => by
    cases w with
    | str a => exact congrArg Json.str (beq_iff_eq.mp h)
    | _ => cases h
  | w, .arr items, hp, h => by
    cases w with
    | arr as => exact congrArg Json.arr (eq_of_sameItems_of_plain hp h)
    | _ => cases h
  | w, .obj members, hp, h => by
    rw [plain, Bool.and_eq_true] at hp
    cases w with
    | obj as => exact congrArg Json.obj (eq_of_sameMembers_of_plain hp.2 h)
    | _ => cases h

theorem eq_of_sameItems_of_plain : ∀ {as vs : List Json}, plainItems vs = true →
    eqItemsBy Number.same as vs = true → as = vs
  | [], [], _, _ => rfl
  | a :: as, v :: vs, hp, h => by
    rw [plainItems, Bool.and_eq_true] at hp
    rw [eqItemsBy, Bool.and_eq_true] at h
    rw [eq_of_same_of_plain hp.1 h.1, eq_of_sameItems_of_plain hp.2 h.2]

theorem eq_of_sameMembers_of_plain : ∀ {as vs : List (String × Json)}, plainMembers vs = true →
    eqMembersBy Number.same as vs = true → as = vs
  | [], [], _, _ => rfl
  | (j, a) :: as, (k, v) :: vs, hp, h => by
    rw [plainMembers, Bool.and_eq_true] at hp
    rw [eqMembersBy, Bool.and_eq_true, Bool.and_eq_true, beq_iff_eq] at h
    rw [h.1.1, eq_of_same_of_plain hp.1 h.1.2, eq_of_sameMembers_of_plain hp.2 h.2]

end

end Json

namespace Event

variable {x prior live d : Event} {k : String} {t : Instant}

/-! ## 2. Plain checks -/

/-- The fields that a live record remembers by itself, and those that operators set. -/
def keptFields : List String :=
  ["keep_state", "change_state_output", "previous_state", "previous_state_change_ts",
    "last_state_change"] ++ clearedFields

/-- The event has none of these fields. An event that has one of them may be new to the live record
that it made: the record clears it, or remembers something else in its place. -/
def Bare (e : Event) : Prop := ∀ k ∈ keptFields, e.known k = none

/-- A check with a time, and with nothing in it that live records remember or operators set. Without a
time of its own it would come a second time at another time of the clock. -/
structure PlainCheck (e : Event) : Prop where
  timed : e.timestamp.isSome = true
  bare : e.Bare

theorem Bare.identified {e : Event} (h : e.Bare) (now : Instant) : (e.identified now).Bare := by
  intro k hk
  rw [← h k hk]
  fin_cases hk <;> rfl

theorem Bare.keepState (h : x.Bare) : x.keepState = none :=
  Option.map_eq_none_iff.mp (show x.keepState.map Json.bool = none from h "keep_state" (by decide))

theorem Bare.previousState (h : x.Bare) : x.previousState = none :=
  Option.map_eq_none_iff.mp
    (show x.previousState.map Json.ofCheckState = none from h "previous_state" (by decide))

theorem stamped_effectiveStatus (x prior : Event) (t : Instant) :
    (x.stamped prior t).effectiveStatus = x.effectiveStatus := by
  unfold effectiveStatus isAlert
  rw [stamped_status, stamped_state]

/-- What a stamp writes is kept by live records, and nothing else is. -/
theorem known_stamped (x prior : Event) (t : Instant) (hk : k ∈ eventFieldNames)
    (hs : k ∉ ["previous_state", "previous_state_change_ts", "last_state_change"]) :
    (x.stamped prior t).known k = x.known k := by
  rw [stamped_eq]
  fin_cases hk <;> first | rfl | exact absurd (by decide) hs

/-! ## 3. The first merge -/

/-- The live record has what `x` brings in known fields, it remembers since when, and nothing is left in
it that the rules would make of `x` another time. -/
structure Absorbed (live x : Event) : Prop where
  taken : ∀ k ∈ eventFieldNames, ∀ v, x.known k = some v →
    ∃ w, live.known k = some w ∧ w.same v = true
  since : ∃ v, live.known "last_state_change" = some v
  unpinned : live.known "keep_state" ≠ some (.bool true)
  off : x.effectiveStatus = .off → ∀ k ∈ clearedFields, live.known k = none
  lifted : x.effectiveStatus = .ongoing → live.known "cancel" = none

/-- The live record has what `x` brings in extra fields, where null may have taken a field away. -/
def Holds (live x : Event) : Prop :=
  ∀ k v, x.extra.fields.get? k = some v →
    v = .null ∧ live.extra.fields.get? k = none ∨
      ∃ w, live.extra.fields.get? k = some w ∧ w.same v = true

theorem Absorbed.of_known (h : Absorbed d x) (hd : ∀ k ∈ eventFieldNames, live.known k = d.known k) :
    Absorbed live x where
  taken := fun k hk v hv => by
    rw [hd k hk]
    exact h.taken k hk v hv
  since := by
    rw [hd _ (by decide)]
    exact h.since
  unpinned := by
    rw [hd _ (by decide)]
    exact h.unpinned
  off := fun hs k hk => (hd k (clearedFields_subset hk)).trans (h.off hs k hk)
  lifted := fun hs => (hd _ (by decide)).trans (h.lifted hs)

/-- The first event of a routing key is its live record. -/
theorem absorbed_first (hx : x.Bare) (t : Instant) :
    Absorbed { x with lastStateChange := some t } x := by
  have hbare (k : String) (hk : k ∈ keptFields) (hne : k ≠ "last_state_change") :
      ({ x with lastStateChange := some t } : Event).known k = none := by
    rw [← hx k hk]
    fin_cases hk <;> first | rfl | exact absurd rfl hne
  refine ⟨fun k hk v hv => ⟨v, ?_, Json.same_refl v⟩, ⟨_, rfl⟩, ?_, fun _ k hk => ?_, fun _ => ?_⟩
  · have hne : k ≠ "last_state_change" := by
      rintro rfl
      rw [hx _ (by decide)] at hv
      cases hv
    rw [← hv]
    fin_cases hk <;> first | rfl | exact absurd rfl hne
  · rw [hbare _ (by decide) (by decide)]
    exact nofun
  · exact hbare k (List.mem_append_right _ hk) fun heq => absurd (heq ▸ hk) (by decide)
  · exact hbare _ (by decide) (by decide)

/-- **A merge takes the event in**, when the live record was not pinned (`hp`). A pinned one keeps its
state and its output, and so does not have what the event brings. -/
theorem absorbed_merged (hx : x.Bare) (hp : prior.keepState ≠ some true)
    (h : prior.update? ((x.stamped prior t).changeOf [] prior) = some d) : Absorbed d x := by
  have hkeep : (x.stamped prior t).keepState = none := by rw [stamped_keepState, hx.keepState]
  have hcleared (k : String) (hk : k ∈ clearedFields) : (x.stamped prior t).known k = none := by
    rw [known_stamped x prior t (clearedFields_subset hk) fun hs => ?_]
    · exact hx k (List.mem_append_right _ hk)
    · fin_cases hk <;> exact absurd hs (by decide)
  have hlaw (k : String) (hk : k ∈ eventFieldNames) (hc : k ∉ clearedFields) :=
    known_merged_of_differences h hk (get?_changeOf_of_unpinned [] hkeep hp hc)
  refine ⟨fun k hk v hv => ?_, ?_, ?_, fun hs k hk => ?_, fun hs => ?_⟩
  · have hkept : k ∉ keptFields := fun hkept => by
      rw [hx k hkept] at hv
      cases hv
    have hstamp : k ∉ ["previous_state", "previous_state_change_ts", "last_state_change"] :=
      fun hs => hkept (List.mem_append_left _ (by fin_cases hs <;> decide))
    rw [hlaw k hk fun hc => hkept (List.mem_append_right _ hc), known_stamped x prior t hk hstamp, hv,
      Option.filter_some]
    cases hold : (prior.known k).any fun w => w.same v with
    | true =>
      obtain ⟨w, hw, hsame⟩ := (Option.any_eq_true _ _).mp hold
      exact ⟨w, hw, hsame⟩
    | false => exact ⟨v, rfl, Json.same_refl v⟩
  · obtain ⟨-, -, -, hsince, -⟩ := states_merged h hkeep hp
    have hstamped : ∃ since, (x.stamped prior t).lastStateChange = some since := by
      rw [stamped_eq]
      exact ⟨_, rfl⟩
    obtain ⟨since, hstamped⟩ := hstamped
    rw [hstamped, Option.some_or] at hsince
    exact ⟨_, congrArg (Option.map Json.ofInstant) hsince⟩
  · have hsame : d.known "keep_state" = prior.known "keep_state" := by
      rw [hlaw _ (by decide) (by decide), known_stamped x prior t (by decide) (by decide),
        hx _ (by decide)]
      rfl
    rw [hsame]
    exact fun hpin => hp (encodingFlag.map_injective hpin)
  · refine known_merged_of_off_of_none h hk ?_ (hcleared k hk)
    rw [stamped_effectiveStatus, hs]
  · have hcancel : (x.stamped prior t).cancel = none :=
      Option.map_eq_none_iff.mp (show _ = none from hcleared "cancel" (by decide))
    have hmerged := cancel_merged h hcancel
    rw [stamped_effectiveStatus, if_pos (Or.inr hs)] at hmerged
    exact congrArg (Option.map Remark.toJson) hmerged

theorem holds_merged (h : prior.update? ((x.stamped prior t).changeOf [] prior) = some d) :
    d.Holds x := by
  intro k v hv
  have hk : k ∉ eventFieldNames := fun hk => by
    rw [ExtraFields.get?_of_known _ hk] at hv
    cases hv
  have hruled : k ∉ ruledFields := fun hr => hk (ruledFields_subset hr)
  have hlaw := get?_toFields_merged h (Or.inl hruled)
  rw [mergedField, get?_toFields_of_unknown _ hk, get?_toFields_of_unknown _ hk,
    get?_toFields_of_unknown _ hk, stamped_extra, hv] at hlaw
  dsimp only at hlaw
  split at hlaw
  · rename_i hold
    obtain ⟨w, hw, hsame⟩ := (Option.any_eq_true _ _).mp (hold.resolve_left List.not_mem_nil)
    exact Or.inr ⟨w, hlaw.trans hw, hsame⟩
  · split at hlaw
    · rename_i hnull
      exact Or.inl ⟨hnull, hlaw⟩
    · exact Or.inr ⟨v, hlaw, Json.same_refl v⟩

/-! ## 4. The second merge -/

/-- **An event that comes again is stamped with nothing new.** Its live record has its state and its
state type already (`h`), so no change is noted, and it remembers since when. -/
theorem stamped_again (h : Absorbed live x) (t : Instant) :
    x.stamped live t = { x with lastStateChange := live.lastStateChange } := by
  have hstate : live.state = x.state := by
    obtain ⟨w, hw, hsame⟩ := h.taken "state" (by decide) _ rfl
    cases hw
    exact encodingCheckState.injective (eq_of_same_int hsame)
  have htype : live.stateType = x.stateType := by
    obtain ⟨w, hw, hsame⟩ := h.taken "state_type" (by decide) _ rfl
    cases hw
    exact encodingCheckState.injective (eq_of_same_int hsame)
  obtain ⟨since, hsince⟩ : ∃ since, live.lastStateChange = some since := by
    obtain ⟨v, hv⟩ := h.since
    obtain ⟨since, hsince, -⟩ := Option.map_eq_some_iff.mp
      (show live.lastStateChange.map Json.ofInstant = some v from hv)
    exact ⟨since, hsince⟩
  rw [stamped_eq, hstate, htype, hsince]
  simp only [and_self, if_true, Option.getD_some]

/-- It is not for the log. -/
theorem logged_again (hx : x.Bare) (h : Absorbed live x) (t : Instant) :
    Archive.logged (x.stamped live t) = false := by
  rw [stamped_again h, Archive.logged, show _ = none from hx.previousState]
  rfl

/-- **No known field changes.** For a field without a rule this is what `Absorbed` says. The rules for
operators find nothing to take away, and nothing of theirs in the event, which is bare. -/
theorem get?_changeOf_again (hx : x.Bare) (h : Absorbed live x) (t : Instant)
    (hk : k ∈ eventFieldNames) : ((x.stamped live t).changeOf [] live).get? k = none := by
  have hstatus := stamped_effectiveStatus x live t
  by_cases hc : k ∈ clearedFields
  · have hnone : (differences [] (x.stamped live t) live).get? k = none := by
      refine get?_differences_of_none [] live hk ?_
      rw [known_stamped x live t hk]
      · exact hx k (List.mem_append_right _ hc)
      · intro hs
        fin_cases hc <;> exact absurd hs (by decide)
    by_cases hoff : x.effectiveStatus = .off
    · rw [get?_changeOf_of_off [] live hc (hstatus.trans hoff), h.off hoff k hc, hnone]
      rfl
    rcases List.mem_cons.mp hc with rfl | hc'
    · rw [get?_changeOf_ack, hstatus, if_neg hoff, hnone, ite_self]
    rcases List.mem_cons.mp hc' with rfl | hticket
    · rw [get?_changeOf_cancel, hstatus, hnone]
      split
      · rename_i hcancel
        refine if_neg fun hlift => ?_
        have hlifted := h.lifted (hlift.resolve_left hoff)
        rw [Option.map_eq_none_iff.mp (show live.cancel.map Remark.toJson = none from hlifted)] at hcancel
        cases hcancel
      · rfl
    · rw [get?_changeOf_ticket [] _ live hticket, hstatus, if_neg fun hdrop => hoff hdrop.1, hnone]
  · have hkeep : (x.stamped live t).keepState = none := by rw [stamped_keepState, hx.keepState]
    have hpin : live.keepState ≠ some true := fun hpin =>
      h.unpinned (congrArg (Option.map Json.bool) hpin)
    rw [get?_changeOf_of_unpinned [] hkeep hpin hc, get?_differences, get?_toFields_of_known _ hk,
      get?_toFields_of_known _ hk, stamped_again h, Option.filter_eq_none_iff]
    intro v hv
    have hheld : ∃ w, live.known k = some w ∧ w.same v = true := by
      by_cases hsince : k = "last_state_change"
      · subst hsince
        exact ⟨v, hv, Json.same_refl v⟩
      · refine h.taken k hk v ?_
        rw [← hv]
        fin_cases hk <;> first | rfl | exact absurd rfl hsince
    obtain ⟨w, hw, hsame⟩ := hheld
    rw [hw, Option.any_some, hsame, Bool.not_true, Bool.and_false]
    exact Bool.false_ne_true

/-- **Of the extra fields** the change has none but those of the event that the live record has not, or
has as another value. -/
theorem get?_changeOf_again_of_unknown (x live : Event) (t : Instant) (hk : k ∉ eventFieldNames) :
    ((x.stamped live t).changeOf [] live).get? k =
      (x.extra.fields.get? k).filter fun v => !(live.extra.fields.get? k).any fun w => w.same v := by
  rw [get?_changeOf_of_not_mem [] _ live fun hr => hk (ruledFields_subset hr), get?_differences,
    get?_toFields_of_unknown _ hk, get?_toFields_of_unknown _ hk, stamped_extra]
  simp only [List.not_mem_nil, not_false_eq_true, decide_true, Bool.true_and]

end Event
end AlertStatus
