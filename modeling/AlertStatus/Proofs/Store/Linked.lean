import AlertStatus.Proofs.Data.Matching
import AlertStatus.Proofs.Event.Document
import AlertStatus.Proofs.Event.Merging
import AlertStatus.Session

/-!
# Programs over two stores

Two stores are linked when each of their operations matches, perhaps only on some entities and some
routing keys. Everything above the operations is one program that runs over either store, so it matches
as soon as it keeps to these entities and keys: `Linked` is what the tracker and the archive need, and
`Linked.Whole` what is asked of the rest, which may also search the store and read the log.

What two stores do with an event may depend on what its extra fields hold. So the operations are only
asked to match for events that carry fine values, and the programs are shown to make no other ones:
known fields are of their own making, and extra fields are handed on as they came.
-/

set_option autoImplicit false

namespace AlertStatus

/-! ## 1. What events carry -/

namespace Event

variable {fine : Json → Prop} {e d : Event} {change : Fields}

/-- The extra fields of the event have values that are fine. -/
def Carries (fine : Json → Prop) (e : Event) : Prop :=
  ∀ k v, e.extra.fields.get? k = some v → fine v

/-- The values that the change would give to extra fields are fine. -/
def Mild (fine : Json → Prop) (change : Fields) : Prop :=
  ∀ k, k ∉ eventFieldNames → ∀ v, change.get? k = some v → fine v

theorem Carries.of_extra (h : e.Carries fine) (hd : d.extra = e.extra) : d.Carries fine := by
  unfold Carries
  rw [hd]
  exact h

/-- **An update leaves fine values**, its own or those that were there. Values for known fields need
not be fine, since what is made of them is of the engine's own making. -/
theorem Carries.update (h : e.Carries fine) (hc : Mild fine change)
    (hd : e.update? change = some d) : d.Carries fine := by
  intro k v hv
  rw [extra_of_ofFields? hd, ExtraFields.get?_of] at hv
  split at hv
  · cases hv
  · rename_i hk
    rw [get?_mergeFields, get?_toFields_of_unknown e hk, patch] at hv
    cases hnew : change.get? k with
    | none =>
      rw [hnew] at hv
      exact h k v hv
    | some u =>
      rw [hnew] at hv
      dsimp only at hv
      split at hv
      · cases hv
      · cases hv
        exact hc k hk v hnew

/-- A change of known fields alone. -/
theorem mild_ofList {l : List (String × Json)} (names : List String) (hl : l.map Prod.fst = names)
    (hnodup : names.Nodup) (hsub : names ⊆ eventFieldNames) : Mild fine (.ofList l) := by
  subst hl
  intro k hk v hv
  have hnone : l.lookup k = none := by
    rw [List.lookup_eq_none_iff]
    intro m hm
    rw [bne_iff_ne]
    rintro rfl
    exact hk (hsub (List.mem_map_of_mem hm))
  rw [SortedMap.get?_ofList hnodup, hnone] at hv
  cases hv

/-- **A merge hands on what the event carries.** What it puts into extra fields are differences, and
these are values of the event; the rules put known fields only. -/
theorem Carries.mild_changeOf (h : e.Carries fine) (excluded : List String) (prior : Event) :
    Mild fine (e.changeOf excluded prior) := by
  intro k hk v hv
  have hr : k ∉ ruledFields := by
    intro hr
    have hsub : ∀ j ∈ ruledFields, j ∈ eventFieldNames := by decide
    exact hk (hsub k hr)
  rw [get?_changeOf_of_not_mem excluded e prior hr] at hv
  have hfield := get?_of_differences hv
  rw [get?_toFields_of_unknown e hk] at hfield
  exact h k v hfield

end Event

/-! ## 2. Linked stores -/

open AlertStatus.Action

variable {σ τ : Type} [Store σ] [Store τ]

/-- The operations on the given entities and routing keys match, for events that carry fine values.
Entries of the log are asked about as the archive builds them, so that their keys are among the given
ones. -/
structure Linked (R : σ → τ → Prop) (ids keys : String → Prop) (fine : Json → Prop) : Prop where
  getStatus : ∀ id, ids id → Matches R (Store.getStatus id) (Store.getStatus id) fun _ => True
  putStatus : ∀ id r, ids id →
    Matches R (Store.putStatus id r) (Store.putStatus id r) fun _ => True
  getEvent : ∀ rk, keys rk → Matches R (Store.getEvent rk) (Store.getEvent rk)
    fun o => ∀ e, o = some e → e.Carries fine
  putEvent : ∀ rk e, keys rk → e.Carries fine →
    Matches R (Store.putEvent rk e) (Store.putEvent rk e) fun _ => True
  updateEvent : ∀ rk change, keys rk → Event.Mild fine change →
    Matches R (Store.updateEvent rk change) (Store.updateEvent rk change) fun _ => True
  appendLog : ∀ rk t e, keys rk → e.Carries fine →
    Matches R (Store.appendLog (.of rk t e)) (Store.appendLog (.of rk t e)) fun _ => True

/-- All operations match, for events that carry fine values. -/
structure Linked.Whole (R : σ → τ → Prop) (fine : Json → Prop) : Prop
    extends Linked R (fun _ => True) (fun _ => True) fine where
  expiredStatuses : ∀ a b,
    Matches R (Store.expiredStatuses a b) (Store.expiredStatuses a b) fun _ => True
  appendEntry : ∀ entry : LogEntry, entry.event.Carries fine →
    Matches R (Store.appendLog entry) (Store.appendLog entry) fun _ => True
  getLog : ∀ rk, Matches R (Store.getLog rk) (Store.getLog rk) fun _ => True

namespace Linked

variable {R : σ → τ → Prop} {ids keys : String → Prop} {fine : Json → Prop}
  (h : Linked R ids keys fine)

section Programs

include h

/-! ## 3. The tracker -/

theorem trackerGet {id : String} (hid : ids id) :
    Matches R (Tracker.getStatus id) (Tracker.getStatus id) fun _ => True :=
  (h.getStatus id hid).rename _

theorem trackerPut {id : String} (hid : ids id) (r : StatusRecord) :
    Matches R (Tracker.putStatus id r) (Tracker.putStatus id r) fun _ => True :=
  (h.putStatus id r hid).rename _

theorem known {id : String} (hid : ids id) :
    Matches R (Tracker.known id) (Tracker.known id) fun _ => True := by
  refine (h.trackerGet hid).bind fun o _ => ?_
  cases o with
  | none => exact Matches.fail _ _
  | some r => exact Matches.done _

theorem keep {id : String} (hid : ids id) (rk : String) (r : StatusRecord) :
    Matches R (Tracker.process.keep id rk r) (Tracker.process.keep id rk r) fun _ => True :=
  (h.trackerPut hid _).bind fun _ _ => Matches.done _

theorem process (t : Tracker) {id : String} (hid : ids id) (rk : String) (c : Check) :
    Matches R (t.process id rk c) (t.process id rk c) fun _ => True := by
  refine (h.trackerGet hid).bind fun o _ => ?_
  cases o with
  | none => exact h.keep hid rk _
  | some r =>
    show Matches R (if c.timestamp < r.timestamp then _ else _)
      (if c.timestamp < r.timestamp then _ else _) _
    split
    · exact Matches.done _
    · exact (Matches.ofExcept (Q := fun _ => True) fun _ _ => trivial).bind
        fun r' _ => h.keep hid rk r'

theorem cancel {id : String} (hid : ids id) (time : Instant) :
    Matches R (Tracker.cancel id time) (Tracker.cancel id time) fun _ => True :=
  (h.known hid).bind fun _ _ => (h.trackerPut hid _).bind fun _ _ => Matches.done _

theorem uncancel {id : String} (hid : ids id) (time : Instant) :
    Matches R (Tracker.uncancel id time) (Tracker.uncancel id time) fun _ => True := by
  refine (h.known hid).bind fun r _ => ?_
  show Matches R (if r.value = .canceled then _ else _) (if r.value = .canceled then _ else _) _
  split
  · exact (h.trackerPut hid _).bind fun _ _ => Matches.done _
  · exact Matches.done _

theorem expire (t : Tracker) {id : String} (hid : ids id) (now : Instant) :
    Matches R (t.expire id now) (t.expire id now) fun _ => True := by
  refine (h.trackerGet hid).bind fun o _ => ?_
  cases o with
  | none => exact Matches.done _
  | some r =>
    show Matches R (if _ ∧ r.resolve t.policy now ≠ r then _ else _)
      (if _ ∧ r.resolve t.policy now ≠ r then _ else _) _
    split
    · exact (h.trackerPut hid _).bind fun _ _ => Matches.done _
    · exact Matches.done _

/-! ## 4. The archive -/

theorem acknowledge {rk : String} (hrk : keys rk) (ack : Remark) :
    Matches R (Archive.acknowledge rk ack) (Archive.acknowledge rk ack) fun _ => True :=
  h.updateEvent rk _ hrk (Event.mild_ofList ["ack"] rfl (by decide) (by decide))

theorem removeAck {rk : String} (hrk : keys rk) :
    Matches R (Archive.removeAck rk) (Archive.removeAck rk) fun _ => True :=
  h.updateEvent rk _ hrk (Event.mild_ofList ["ack"] rfl (by decide) (by decide))

theorem markCanceled {rk : String} (hrk : keys rk) (c : Remark) :
    Matches R (Archive.markCanceled rk c) (Archive.markCanceled rk c) fun _ => True :=
  h.updateEvent rk _ hrk (Event.mild_ofList ["cancel", "status"] rfl (by decide) (by decide))

theorem markUncanceled {rk : String} (hrk : keys rk) (s : Status) :
    Matches R (Archive.markUncanceled rk s) (Archive.markUncanceled rk s) fun _ => True :=
  h.updateEvent rk _ hrk (Event.mild_ofList ["cancel", "status"] rfl (by decide) (by decide))

theorem setStatus {rk : String} (hrk : keys rk) (s : Status) :
    Matches R (Archive.setStatus rk s) (Archive.setStatus rk s) fun _ => True :=
  h.updateEvent rk _ hrk (Event.mild_ofList ["status"] rfl (by decide) (by decide))

theorem tryAppend {rk : String} (hrk : keys rk) (t : Instant) {e : Event} (he : e.Carries fine) :
    Matches R (Archive.tryAppend (.of rk t e)) (Archive.tryAppend (.of rk t e)) fun _ => True :=
  (h.appendLog rk t e hrk he).attempt.map _

/-- **A merge**: the live event is put, or updated with what the event changes in it, and a copy goes
to the log. -/
theorem archive (a : Archive) (now : Instant) {e : Event} (hrk : keys e.routingKey)
    (he : e.Carries fine) : Matches R (a.process now e) (a.process now e) fun _ => True := by
  refine (h.getEvent _ hrk).bind fun o ho => ?_
  cases o with
  | none =>
    let d : Event := { e.identified now with lastStateChange := some (e.timestamp.getD now) }
    exact (h.putEvent _ d hrk he).bind fun _ _ => Matches.done _
  | some prior =>
    let s := (e.identified now).stamped prior (e.timestamp.getD now)
    have hs : s.Carries fine :=
      he.of_extra (Event.stamped_extra (e.identified now) prior (e.timestamp.getD now))
    have hlog : Matches R
        (if Archive.logged s then
          Archive.tryAppend (Archive.logCopy e.routingKey (e.timestamp.getD now) s prior)
        else pure false)
        (if Archive.logged s then
          Archive.tryAppend (Archive.logCopy e.routingKey (e.timestamp.getD now) s prior)
        else pure false) fun _ => True := by
      split
      · exact h.tryAppend hrk _ hs
      · exact Matches.done _
    show Matches R (if (s.changeOf a.excluded prior).isEmpty then _ else _)
      (if (s.changeOf a.excluded prior).isEmpty then _ else _) _
    split
    · exact hlog
    · exact (h.updateEvent _ _ hrk (hs.mild_changeOf a.excluded prior)).bind fun _ _ => hlog

/-! ## 5. Incoming events -/

/-- **An incoming event** of the given entities under one of the given routing keys. -/
theorem processEvent (e : Engine) (now : Instant) {event : Event}
    (hid : ∀ id, event.entityId = .ok id → ids id) (hrk : keys event.routingKey)
    (he : event.Carries fine) :
    Matches R (e.processEvent now event) (e.processEvent now event) fun _ => True := by
  unfold Engine.processEvent
  cases hentity : event.entityId with
  | error _ => exact Matches.done _
  | ok id =>
    refine ((h.process e.tracker (hid id hentity) _ _).rename _).bind fun r _ => ?_
    -- The archive gets the event with its time and status, which are neither its key nor extra.
    let d : Event := { event with timestamp := some (event.timestamp.getD now), status := some r.value }
    exact ((h.archive (e := d) e.archive now hrk he).rename _).bind fun _ _ => Matches.done _

end Programs

end Linked
end AlertStatus
