import AlertStatus.Event.Entity
import AlertStatus.Proofs.Event.Update

/-!
# What a merge makes of a live record

The change that an event makes in its live record is gathered in five steps, of which the last four
concern ten fields by name. So a field with another name follows one law (`known_merged`): the live
record takes it from the event where the event has it, it is not excluded, and the two differ. The
fields that operators set follow the rules of their own step, whatever the other steps do.

A merge never fails: each field of the change is one of the event, one of the live record, or one that
the rules write themselves, and each of these fits.
-/

set_option autoImplicit false

namespace AlertStatus
namespace Event

variable {excluded : List String} {e prior : Event} {k : String} {now : Instant}

/-! ## 1. Stamping -/

section Stamping

variable (e prior : Event) (now : Instant)

/-- **What a stamp writes**: three fields, from what the live record remembers. -/
theorem stamped_eq :
    e.stamped prior now =
      { e with
        previousState := if e.state = prior.state then e.previousState else some prior.state
        previousStateChange := if e.state = .ok ↔ prior.state = .ok then e.previousStateChange
          else some (prior.lastStateChange.getD now)
        lastStateChange := some (if e.state = prior.state ∧ e.stateType = prior.stateType then
          prior.lastStateChange.getD now else now) } := by
  unfold stamped
  dsimp only
  by_cases hmark : e.state = prior.state ∧ e.stateType = prior.stateType
  · rw [if_pos hmark, if_pos hmark, if_pos hmark.1, if_pos (by rw [hmark.1])]
  · rw [if_neg hmark, if_neg hmark]

@[simp] theorem stamped_status : (e.stamped prior now).status = e.status := by rw [stamped_eq]

@[simp] theorem stamped_cancel : (e.stamped prior now).cancel = e.cancel := by rw [stamped_eq]

@[simp] theorem stamped_extra : (e.stamped prior now).extra = e.extra := by rw [stamped_eq]

@[simp] theorem stamped_state : (e.stamped prior now).state = e.state := by rw [stamped_eq]

@[simp] theorem stamped_keepState : (e.stamped prior now).keepState = e.keepState := by
  rw [stamped_eq]

end Stamping

/-! ## 2. The steps of a change -/

theorem get?_differences (excluded : List String) (e prior : Event) (k : String) :
    (differences excluded e prior).get? k =
      (e.toFields.get? k).filter fun v =>
        k ∉ excluded && !(prior.toFields.get? k).any fun w => w.same v :=
  SortedMap.get?_filter _ _ _

/-- Only what the event has is among the differences. -/
theorem get?_of_differences {v : Json} (h : (differences excluded e prior).get? k = some v) :
    e.toFields.get? k = some v := by
  rw [get?_differences, Option.filter_eq_some_iff] at h
  exact h.1

theorem get?_dropOrLeave (c : Fields) (name : String) (drop : Bool) (k : String) :
    (dropOrLeave c name drop).get? k =
      if k = name then (if drop then some .null else none) else c.get? k := by
  unfold dropOrLeave
  cases drop with
  | true => exact SortedMap.get?_insert c name k .null
  | false => exact SortedMap.get?_erase c name k

theorem get?_changeAck_of_ne (c : Fields) (hk : k ≠ "ack") :
    (changeAck e prior c).get? k = c.get? k := by
  unfold changeAck
  split
  · rw [get?_dropOrLeave, if_neg hk]
  · rfl

theorem get?_changeCancel_of_ne (c : Fields) (hk : k ≠ "cancel") :
    (changeCancel e prior c).get? k = c.get? k := by
  unfold changeCancel
  split
  · rw [get?_dropOrLeave, if_neg hk]
  · rfl

theorem get?_foldl_null (names : List String) (c : Fields) (k : String) :
    (names.foldl (fun f j => f.insert j .null) c).get? k =
      if k ∈ names then some .null else c.get? k := by
  induction names generalizing c with
  | nil => rfl
  | cons j names ih =>
    rw [List.foldl_cons, ih, SortedMap.get?_insert]
    by_cases hj : k = j
    · simp [hj]
    · simp [hj]

theorem get?_changeTicket (c : Fields) (k : String) :
    (changeTicket e prior c).get? k =
      if e.effectiveStatus = .off ∧ k ∈ ticketFields ∧ prior.toFields.contains k = true then
        some .null
      else c.get? k := by
  unfold changeTicket
  by_cases hs : e.effectiveStatus = .off
  · rw [if_pos hs, get?_foldl_null]
    simp only [List.mem_filter, hs, true_and]
  · rw [if_neg hs, if_neg fun h => hs h.1]

/-- The fields that the rule for pinned states writes. -/
def pinnedFields : List String := ["keep_state", "change_state_output", "output", "state"]

theorem get?_changePinned_of_not_mem (c : Fields) (hk : k ∉ pinnedFields) :
    (changePinned e prior c).get? k = c.get? k := by
  have hk' : k ≠ "keep_state" ∧ k ≠ "change_state_output" ∧ k ≠ "output" ∧ k ≠ "state" := by
    simpa [pinnedFields] using hk
  obtain ⟨h₁, h₂, h₃, h₄⟩ := hk'
  have hreset : ∀ b : Bool, (if b then c.insert "keep_state" (.bool false) else c).get? k =
      c.get? k := by
    intro b
    cases b with
    | true => exact (SortedMap.get?_insert c _ k _).trans (if_neg h₁)
    | false => rfl
  unfold changePinned
  dsimp only
  split
  · rw [SortedMap.get?_insert, if_neg h₃, SortedMap.get?_insert, if_neg h₂, hreset]
  · split
    · rw [SortedMap.get?_erase, if_neg h₃, SortedMap.get?_insert, if_neg h₄, hreset]
    · exact hreset _

/-- The fields for which a merge has rules of their own. -/
def ruledFields : List String := "ack" :: "cancel" :: (ticketFields ++ pinnedFields)

theorem ruledFields_subset : ruledFields ⊆ eventFieldNames := by
  intro k hk
  fin_cases hk <;> decide

/-- **A field without a rule of its own changes by the differences alone.** The rules come after the
differences and put their own fields only, so all that has to be known is that `k` is none of those
(`hk`). -/
theorem get?_changeOf_of_not_mem (excluded : List String) (e prior : Event)
    (hk : k ∉ ruledFields) :
    (e.changeOf excluded prior).get? k = (differences excluded e prior).get? k := by
  obtain ⟨hack, hcancel, hticket, hpinned⟩ :
      k ≠ "ack" ∧ k ≠ "cancel" ∧ k ∉ ticketFields ∧ k ∉ pinnedFields := by
    simpa [ruledFields] using hk
  rw [changeOf, get?_changePinned_of_not_mem _ hpinned, get?_changeTicket,
    if_neg fun h => hticket h.2.1, get?_changeCancel_of_ne _ hcancel, get?_changeAck_of_ne _ hack]

/-- A live record that is not pinned is merged with an event that does not pin it as if there were no
rule for pinned states. -/
theorem get?_changeOf_of_unpinned (excluded : List String) (he : e.keepState = none)
    (hp : prior.keepState ≠ some true) (hk : k ∉ "ack" :: "cancel" :: ticketFields) :
    (e.changeOf excluded prior).get? k = (differences excluded e prior).get? k := by
  obtain ⟨hack, hcancel, hticket⟩ : k ≠ "ack" ∧ k ≠ "cancel" ∧ k ∉ ticketFields := by
    simpa using hk
  have hpinned (c : Fields) : changePinned e prior c = c := by
    unfold changePinned
    simp [he, hp]
  rw [changeOf, hpinned, get?_changeTicket, if_neg fun h => hticket h.2.1,
    get?_changeCancel_of_ne _ hcancel, get?_changeAck_of_ne _ hack]

theorem get?_changeOf_ack (excluded : List String) (e prior : Event) :
    (e.changeOf excluded prior).get? "ack" =
      if prior.ack.isSome then (if e.effectiveStatus = .off then some .null else none)
      else (differences excluded e prior).get? "ack" := by
  rw [changeOf, get?_changePinned_of_not_mem _ (by decide), get?_changeTicket,
    if_neg fun h => absurd h.2.1 (by decide), get?_changeCancel_of_ne _ (by decide), changeAck]
  split
  · rw [get?_dropOrLeave, if_pos rfl]
    simp only [decide_eq_true_eq]
  · rfl

theorem get?_changeOf_cancel (excluded : List String) (e prior : Event) :
    (e.changeOf excluded prior).get? "cancel" =
      if prior.cancel.isSome then
        (if e.effectiveStatus = .off ∨ e.effectiveStatus = .ongoing then some .null else none)
      else (differences excluded e prior).get? "cancel" := by
  rw [changeOf, get?_changePinned_of_not_mem _ (by decide), get?_changeTicket,
    if_neg fun h => absurd h.2.1 (by decide), changeCancel]
  split
  · rw [get?_dropOrLeave, if_pos rfl]
    simp only [Bool.or_eq_true, decide_eq_true_eq]
  · exact get?_changeAck_of_ne _ (by decide)

theorem get?_changeOf_ticket (excluded : List String) (e prior : Event) (hk : k ∈ ticketFields) :
    (e.changeOf excluded prior).get? k =
      if e.effectiveStatus = .off ∧ prior.toFields.contains k = true then some .null
      else (differences excluded e prior).get? k := by
  have hpinned : k ∉ pinnedFields := by
    fin_cases hk <;> decide
  have hack : k ≠ "ack" ∧ k ≠ "cancel" := by
    fin_cases hk <;> decide
  rw [changeOf, get?_changePinned_of_not_mem _ hpinned, get?_changeTicket,
    get?_changeCancel_of_ne _ hack.2, get?_changeAck_of_ne _ hack.1]
  simp only [hk, true_and]

/-! ## 3. A merge never fails -/

section Fitting

variable {c : Fields}

theorem fitting_differences (excluded : List String) (e prior : Event) :
    Fitting (differences excluded e prior) := by
  intro k hk v hv
  have hknown : e.known k = some v := by
    rw [← get?_toFields_of_known e hk]
    exact get?_of_differences hv
  refine ⟨e, ?_⟩
  rw [hknown, if_neg (known_ne_null hknown)]

theorem Fitting.erase (h : Fitting c) (k : String) : Fitting (c.erase k) := by
  intro j hj v hv
  rw [SortedMap.get?_erase] at hv
  split at hv
  · cases hv
  · exact h j hj v hv

theorem Fitting.insert (h : Fitting c) {k : String} {v : Json} {d : Event}
    (hd : d.known k = if v = .null then none else some v) : Fitting (c.insert k v) := by
  intro j hj w hw
  rw [SortedMap.get?_insert] at hw
  split at hw
  · rename_i hjk
    cases hw
    exact ⟨d, hjk ▸ hd⟩
  · exact h j hj w hw

/-- A field that an event may do without can be taken away. It is one that the blank event has not
(`hk`); to take away a field with a default is to set it to the default. -/
theorem Fitting.insert_null (h : Fitting c) {k : String} (hk : blank.known k = none) :
    Fitting (c.insert k .null) :=
  h.insert (d := blank) (by rw [hk, if_pos rfl])

theorem Fitting.dropOrLeave (h : Fitting c) {k : String} (hk : blank.known k = none) (drop : Bool) :
    Fitting (dropOrLeave c k drop) := by
  unfold Event.dropOrLeave
  split
  · exact h.insert_null hk
  · exact h.erase k

theorem Fitting.changeAck (h : Fitting c) : Fitting (changeAck e prior c) := by
  unfold Event.changeAck
  split
  · exact h.dropOrLeave rfl _
  · exact h

theorem Fitting.changeCancel (h : Fitting c) : Fitting (changeCancel e prior c) := by
  unfold Event.changeCancel
  split
  · exact h.dropOrLeave rfl _
  · exact h

theorem Fitting.changeTicket (h : Fitting c) : Fitting (changeTicket e prior c) := by
  intro k hk v hv
  rw [get?_changeTicket] at hv
  split at hv
  · rename_i hdrop
    cases hv
    refine ⟨blank, ?_⟩
    have hticket : k ∈ ticketFields := hdrop.2.1
    fin_cases hticket <;> rfl
  · exact h k hk v hv

theorem Fitting.changePinned (h : Fitting c) : Fitting (changePinned e prior c) := by
  have hreset : ∀ b : Bool, Fitting (if b then c.insert "keep_state" (.bool false) else c) := by
    intro b
    cases b with
    | true => exact h.insert (d := { blank with keepState := some false }) rfl
    | false => exact h
  unfold Event.changePinned
  dsimp only
  split
  · refine Fitting.insert (d := { blank with output := some (prior.output.getD "") }) ?_ rfl
    exact (hreset _).insert (d := { blank with changeStateOutput := some (e.output.getD "") }) rfl
  · split
    · exact ((hreset _).insert (d := prior) rfl).erase _
    · exact hreset _

end Fitting

theorem fitting_changeOf (excluded : List String) (e prior : Event) :
    Fitting (e.changeOf excluded prior) :=
  (fitting_differences excluded e prior).changeAck.changeCancel.changeTicket.changePinned

/-- **A merge gives an event**, whose known fields are those of the live record as the change patches
them. It does so for all events and all excluded fields, so no caller has to ask whether a merge can
fail. -/
theorem exists_merged (excluded : List String) (e prior : Event) :
    ∃ e', prior.update? (e.changeOf excluded prior) = some e' ∧
      e'.extra = .of (mergeFields prior.toFields (e.changeOf excluded prior)) ∧
      ∀ k ∈ eventFieldNames, e'.known k = patch (e.changeOf excluded prior) k (prior.known k) :=
  update?_of_fitting prior (fitting_changeOf excluded e prior)

/-! ## 4. The merged record -/

section Merged

variable {e' : Event}

theorem known_of_update? (h : prior.update? (e.changeOf excluded prior) = some e')
    (hk : k ∈ eventFieldNames) : e'.known k = patch (e.changeOf excluded prior) k (prior.known k) := by
  obtain ⟨d, hd, -, hknown⟩ := exists_merged excluded e prior
  rw [h] at hd
  cases hd
  exact hknown k hk

/-- A field that the change does not name stays. -/
theorem known_merged_of_none (h : prior.update? (e.changeOf excluded prior) = some e')
    (hk : k ∈ eventFieldNames) (hc : (e.changeOf excluded prior).get? k = none) :
    e'.known k = prior.known k := by
  rw [known_of_update? h hk, patch_of_none hc]

/-- A field that changes by the differences alone is the event's where that is not excluded and differs
from the live record's. -/
theorem known_merged_of_differences (h : prior.update? (e.changeOf excluded prior) = some e')
    (hk : k ∈ eventFieldNames)
    (hc : (e.changeOf excluded prior).get? k = (differences excluded e prior).get? k) :
    e'.known k =
      ((e.known k).filter fun v => k ∉ excluded && !(prior.known k).any fun w => w.same v).or
        (prior.known k) := by
  rw [known_of_update? h hk, patch, hc, get?_differences, get?_toFields_of_known e hk,
    get?_toFields_of_known prior hk]
  cases hd : (e.known k).filter fun v =>
      k ∉ excluded && !(prior.known k).any fun w => w.same v with
  | none => rfl
  | some v =>
    have hv : e.known k = some v := (Option.filter_eq_some_iff.mp hd).1
    dsimp only
    rw [if_neg (known_ne_null hv)]
    rfl

/-- **The law of a field without a rule of its own.** The event's value is taken where it has one that
is not excluded and does not count as the same as the live record's. -/
theorem known_merged (h : prior.update? (e.changeOf excluded prior) = some e')
    (hk : k ∈ eventFieldNames) (hr : k ∉ ruledFields) :
    e'.known k =
      ((e.known k).filter fun v => k ∉ excluded && !(prior.known k).any fun w => w.same v).or
        (prior.known k) :=
  known_merged_of_differences h hk (get?_changeOf_of_not_mem excluded e prior hr)

/-- The same law for the values of a field: the event's where it has one, and else the live record's. -/
theorem field_merged {α : Type} {encode : α → Json} {screen : Screen} {decode : Json → Option α}
    (k : String) (get : Event → Option α) (henc : Encoding encode screen decode)
    (hsame : ∀ a a', (encode a).same (encode a') = true → encode a = encode a')
    (hget : ∀ d : Event, d.known k = (get d).map encode)
    (h : prior.update? (e.changeOf excluded prior) = some e') (hk : k ∈ eventFieldNames)
    (hx : k ∉ excluded)
    (hc : (e.changeOf excluded prior).get? k = (differences excluded e prior).get? k) :
    get e' = (get e).or (get prior) := by
  have hknown := known_merged_of_differences h hk hc
  rw [hget, hget, hget] at hknown
  refine henc.map_injective (hknown.trans ?_)
  cases he : get e with
  | none => rfl
  | some a =>
    cases hp : get prior with
    | none => simp [Option.filter_some, hx]
    | some a' =>
      by_cases hs : (encode a').same (encode a) = true
      · obtain rfl := henc.injective (hsame a' a hs)
        simp [Option.filter_some, hx, hs]
      · simp [Option.filter_some, hx, hs]

/-- Whole numbers that count as the same are the same document. -/
theorem eq_of_same_int {i j : Integer64} (h : (Json.num (.int i)).same (.num (.int j)) = true) :
    Json.num (.int i) = .num (.int j) :=
  congrArg (fun i => Json.num (.int i)) (of_decide_eq_true h)

/-- A field in which the event and the live record agree stays as it is, and so does one that the
event does not have. -/
theorem known_merged_of_eq (h : prior.update? (e.changeOf excluded prior) = some e')
    (hk : k ∈ eventFieldNames) (hr : k ∉ ruledFields)
    (he : e.known k = prior.known k ∨ e.known k = none) : e'.known k = prior.known k := by
  rw [known_merged h hk hr]
  rcases he with he | he
  · rw [he]
    cases hp : prior.known k with
    | none => rfl
    | some v =>
      cases hd : (some v).filter fun u => k ∉ excluded && !(some v).any fun w => w.same u with
      | none => rfl
      | some w => exact (Option.filter_eq_some_iff.mp hd).1.symm ▸ rfl
  · rw [he]
    rfl

/-- A field that the event has and that is not excluded ends up as the event has it, if the two are
equal as documents wherever they count as the same (`hsame`). Of the documents of known fields all do,
as only the two zeros of binary numbers count as the same without being equal. -/
theorem known_merged_of_some (h : prior.update? (e.changeOf excluded prior) = some e')
    (hk : k ∈ eventFieldNames) (hr : k ∉ ruledFields) (hx : k ∉ excluded) {v : Json}
    (he : e.known k = some v) (hsame : ∀ w, prior.known k = some w → w.same v = true → w = v) :
    e'.known k = some v := by
  rw [known_merged h hk hr, he]
  cases hd : (some v).filter fun u => k ∉ excluded && !(prior.known k).any fun w => w.same u with
  | some u => exact (Option.filter_eq_some_iff.mp hd).1.symm ▸ rfl
  | none =>
    have hany : (prior.known k).any (fun w => w.same v) = true := by
      rw [Option.filter_eq_none_iff] at hd
      simpa [hx] using hd v rfl
    obtain ⟨w, hw, hwv⟩ := (Option.any_eq_true _ _).mp hany
    rw [hw, hsame w hw hwv]
    rfl

/-- What a live record that is not pinned keeps of its states and their times, after an event that does
not pin it. -/
theorem states_merged (h : prior.update? (e.changeOf [] prior) = some e') (he : e.keepState = none)
    (hp : prior.keepState ≠ some true) :
    e'.state = e.state ∧ e'.stateType = e.stateType ∧
      e'.previousState = e.previousState.or prior.previousState ∧
      e'.lastStateChange = e.lastStateChange.or prior.lastStateChange ∧
      e'.previousStateChange = e.previousStateChange.or prior.previousStateChange := by
  have hlaw {k : String} (hk : k ∉ "ack" :: "cancel" :: ticketFields) :=
    get?_changeOf_of_unpinned (k := k) [] he hp hk
  have hsame {i j : Integer64} := @eq_of_same_int i j
  refine ⟨?_, ?_, ?_, ?_, ?_⟩
  · exact Option.some.inj (field_merged "state" (fun d => some d.state) encodingCheckState
      (fun _ _ => hsame) (fun _ => rfl) h (by decide) List.not_mem_nil (hlaw (by decide)))
  · exact Option.some.inj (field_merged "state_type" (fun d => some d.stateType) encodingCheckState
      (fun _ _ => hsame) (fun _ => rfl) h (by decide) List.not_mem_nil (hlaw (by decide)))
  · exact field_merged "previous_state" previousState encodingCheckState (fun _ _ => hsame)
      (fun _ => rfl) h (by decide) List.not_mem_nil (hlaw (by decide))
  · exact field_merged "last_state_change" lastStateChange encodingInstant (fun _ _ => hsame)
      (fun _ => rfl) h (by decide) List.not_mem_nil (hlaw (by decide))
  · exact field_merged "previous_state_change_ts" previousStateChange encodingInstant
      (fun _ _ => hsame) (fun _ => rfl) h (by decide) List.not_mem_nil (hlaw (by decide))

/-- It stays unpinned, and unacknowledged if the event acknowledges nothing. -/
theorem bare_merged (h : prior.update? (e.changeOf excluded prior) = some e')
    (he : e.ack = none ∧ e.keepState = none) (hp : prior.ack = none ∧ prior.keepState = none) :
    e'.ack = none ∧ e'.keepState = none := by
  have hnone {k : String} (hk : k ∈ eventFieldNames) (hek : e.known k = none)
      (hpk : prior.known k = none)
      (hc : (e.changeOf excluded prior).get? k = (differences excluded e prior).get? k) :
      e'.known k = none := by
    rw [known_merged_of_differences h hk hc, hek, hpk]
    rfl
  constructor
  · refine Option.map_eq_none_iff.mp (hnone (k := "ack") (by decide) ?_ ?_ ?_)
    · exact congrArg (Option.map Remark.toJson) he.1
    · exact congrArg (Option.map Remark.toJson) hp.1
    · rw [get?_changeOf_ack, hp.1]
      rfl
  · refine Option.map_eq_none_iff.mp (hnone (k := "keep_state") (by decide) ?_ ?_ ?_)
    · exact congrArg (Option.map Json.bool) he.2
    · exact congrArg (Option.map Json.bool) hp.2
    · exact get?_changeOf_of_unpinned excluded he.2 (by rw [hp.2]; exact nofun) (by decide)

/-- **The live record takes the status of the event**, when it may: an excluded status (`hx` fails)
stays what it was in the live record, whatever the engine has computed. -/
theorem status_merged (h : prior.update? (e.changeOf excluded prior) = some e')
    (hx : "status" ∉ excluded) {s : Status} (he : e.status = some s) : e'.status = some s := by
  have hknown : e.known "status" = some s.toJson := congrArg (Option.map Status.toJson) he
  refine encodingStatus.map_injective (known_merged_of_some h (by decide) (by decide) hx hknown ?_)
  intro w hw hsame
  obtain ⟨s₀, -, rfl⟩ := Option.map_eq_some_iff.mp (show prior.status.map Status.toJson = some w from hw)
  exact eq_of_same_int hsame

/-- The live record keeps a status that the event repeats, excluded or not. -/
theorem status_merged_of_eq (h : prior.update? (e.changeOf excluded prior) = some e')
    (hs : e.status = prior.status) : e'.status = prior.status := by
  have hknown : e.known "status" = prior.known "status" := congrArg (Option.map Status.toJson) hs
  exact encodingStatus.map_injective
    (known_merged_of_eq h (by decide) (by decide) (Or.inl hknown))

/-- An extra field of the live record was one before, or comes from the event. -/
theorem extra_merged (h : prior.update? (e.changeOf excluded prior) = some e') {v : Json}
    (hv : e'.extra.fields.get? k = some v) :
    prior.extra.fields.get? k = some v ∨ e.extra.fields.get? k = some v := by
  obtain ⟨hk, hc | hv⟩ := (update?_eq_some_iff.mp h).extra_cases hv
  · have hr : k ∉ ruledFields := fun hr => hk (ruledFields_subset hr)
    rw [get?_changeOf_of_not_mem excluded e prior hr] at hc
    exact Or.inr ((get?_toFields_of_unknown e hk).symm.trans (get?_of_differences hc))
  · exact Or.inl hv

/-! ## 5. The source of an event -/

/-- The fields that say where an event comes from. -/
def source (e : Event) : String × String × String × String × Option String :=
  (e.sourceType, e.connector, e.connectorName, e.component, e.resource)

/-- The entity of an event is a matter of its source. -/
theorem entityId_of_source {e d : Event} (h : e.source = d.source) : e.entityId = d.entityId := by
  unfold source at h
  simp only [Prod.mk.injEq] at h
  obtain ⟨h₁, h₂, h₃, h₄, h₅⟩ := h
  unfold entityId
  rw [h₁, h₂, h₃, h₄, h₅]

@[simp] theorem stamped_source (e prior : Event) (now : Instant) :
    (e.stamped prior now).source = e.source := by
  rw [stamped_eq]
  rfl

/-- A merge of events of one source keeps the source. -/
theorem source_merged (h : prior.update? (e.changeOf excluded prior) = some e')
    (hs : e.source = prior.source) : e'.source = prior.source := by
  unfold source at hs
  simp only [Prod.mk.injEq] at hs
  obtain ⟨h₁, h₂, h₃, h₄, h₅⟩ := hs
  have hstays : ∀ k ∈ ["source_type", "connector", "connector_name", "component", "resource"],
      e.known k = prior.known k → e'.known k = prior.known k := by
    intro k hk heq
    refine known_merged_of_eq h ?_ ?_ (Or.inl heq)
    · fin_cases hk <;> decide
    · fin_cases hk <;> decide
  have htext : ∀ {s t : String}, some (Json.str s) = some (.str t) → s = t :=
    fun h => encodingText.injective (Option.some.inj h)
  have k₁ := htext (hstays "source_type" (by decide) (congrArg (fun s => some (Json.str s)) h₁))
  have k₂ := htext (hstays "connector" (by decide) (congrArg (fun s => some (Json.str s)) h₂))
  have k₃ := htext (hstays "connector_name" (by decide) (congrArg (fun s => some (Json.str s)) h₃))
  have k₄ := htext (hstays "component" (by decide) (congrArg (fun s => some (Json.str s)) h₄))
  have k₅ := encodingText.map_injective
    (hstays "resource" (by decide) (congrArg (Option.map Json.str) h₅))
  unfold source
  rw [k₁, k₂, k₃, k₄, k₅]

end Merged

end Event
end AlertStatus
