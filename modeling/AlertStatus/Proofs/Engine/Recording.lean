import AlertStatus.Proofs.Engine.Incident
import AlertStatus.Proofs.Engine.Lossless
import AlertStatus.Proofs.Event.Retention

/-!
# What archiving an event leaves

An event that is off should leave no remark and no ticket on its live record. But it leaves those that it
brings itself where the live record had none (`cleared_by_off`, `ack_brought_by_off`).

The log should have the changes of state and nothing else. But an event whose state did not change is
recorded too if it claims another previous state (`recorded_iff`, `recorded_without_change`).
-/

set_option autoImplicit false

namespace AlertStatus

open AlertStatus.Action

/-! ## 1. Events that are off -/

/-- What operators set is none of what an event is stamped with. -/
theorem Event.known_arriving (e prior : Event) (now : Instant) {k : String}
    (hk : k ∈ clearedFields) : (e.arriving prior now).known k = e.known k := by
  rw [arriving, stamped_eq]
  fin_cases hk <;> rfl

namespace Backend

variable {b b' : Backend} {now : Instant} {e prior d : Event} {l : List LogEntry}

/-- **What an event that is off leaves of the fields that it should clear.** Over a store of either
kind, an acknowledgement, a cancellation and the fields of the ticket are gone when the live record had
them. Where it had not, the live record has what the event brings, unless the field is excluded.

The key has a live record (`hprior`), which is what the event should clear. The store keeps the event
(`hkeeps`, see `Medium.keeps_of_readText`), so that the live record is found after it. The event is off
by its own status or by its state (`hoff`). -/
theorem cleared_by_off (a : Archive) (now : Instant)
    (hprior : b.eventAt e.routingKey = .ok (some prior)) (hkeeps : b.medium.Keeps e)
    (hoff : e.effectiveStatus = .off) :
    (a.process now e).Gives b fun _ b' =>
      ∃ live, b'.eventAt e.routingKey = .ok (some live) ∧ ∀ k ∈ Event.clearedFields,
        live.known k = if (prior.known k).isSome ∨ k ∈ a.excluded then none else e.known k := by
  obtain ⟨d, hd, hgives⟩ := gives_archived a now hprior
  refine hgives.weaken fun added b' harchived => ?_
  obtain ⟨x, hlive⟩ := harchived.live hprior hd hkeeps
  refine ⟨_, hlive, fun k hk => ?_⟩
  show d.known k = _
  rw [Event.known_merged_of_off hd hk (by rw [Event.arriving_effectiveStatus]; exact hoff),
    Event.known_arriving e prior now hk]

/-- The store after some events were archived, from an empty one in memory. -/
def archivedAll (es : List Event) : Backend :=
  runAll ((⟨[]⟩ : Archive).process (atSecond 0)) es (blank .values)

def operatorAck : Remark := ⟨"operator", none, atSecond 1001⟩

/-- A recovery that carries an acknowledgement. -/
def ackedRecovery : Event := { Event.webCheck 0 1100 with ack := some operatorAck }

/-- A live record that nobody acknowledged is acknowledged after the recovery. When the same event comes
again the acknowledgement is cleared. -/
theorem ack_brought_by_off :
    ackedRecovery.effectiveStatus = .off ∧
      (archivedAll [.webCheck 2 1000]).glance webKey Event.ack = .ok (some none) ∧
      (archivedAll [.webCheck 2 1000, ackedRecovery]).glance webKey Event.ack =
        .ok (some (some operatorAck)) ∧
      (archivedAll [.webCheck 2 1000, ackedRecovery, ackedRecovery]).glance webKey Event.ack =
        .ok (some none) := by
  decide +kernel

/-- An alert with an acknowledgement and a ticket. -/
def ticketed : Event :=
  { Event.webCheck 2 1000 with ack := some operatorAck, ticket := some "T-1" }

def oneTicket : Backend := ((Store.putEvent webKey ticketed).runOn (blank .values)).2

theorem eventAt_oneTicket : oneTicket.eventAt webKey = .ok (some ticketed) := by
  have hgives : (blank .values).medium.Gives ticketed ticketed := rfl
  rw [oneTicket, eventAt_putEvent hgives, if_pos rfl]

/-- The acknowledgement and the ticket are cleared, even if the recovery carries the acknowledgement. -/
theorem cleared_by_off_ticketed :
    oneTicket.eventAt webKey = .ok (some ticketed) ∧ Medium.values.Keeps ackedRecovery ∧
      ackedRecovery.effectiveStatus = .off ∧
      ((⟨[]⟩ : Archive).process (atSecond 1) ackedRecovery).Gives oneTicket fun _ b' =>
        ∃ live, b'.eventAt webKey = .ok (some live) ∧ live.ack = none ∧ live.ticket = none := by
  have hkey : ackedRecovery.routingKey = webKey := by decide
  have hoff : ackedRecovery.effectiveStatus = .off := by decide
  have hkeeps : oneTicket.medium.Keeps ackedRecovery := trivial
  have hcleared := cleared_by_off ⟨[]⟩ (atSecond 1) (hkey ▸ eventAt_oneTicket) hkeeps hoff
  refine ⟨eventAt_oneTicket, trivial, hoff, ?_⟩
  refine hcleared.weaken fun _ b' ⟨live, hlive, hknown⟩ => ⟨live, hkey ▸ hlive, ?_, ?_⟩
  · exact Option.map_eq_none_iff.mp (hknown "ack" (by decide))
  · exact Option.map_eq_none_iff.mp (hknown "ticket" (by decide))

/-! ## 2. What goes to the log -/

/-- **When an event is recorded.** Over a store of either kind whose log has entries as they are built,
an entry is added if and only if the state changed or the event claims another previous state than its
own, and no entry has its key and time yet. The entry is all that the log gains. It has the state of
the event, and the previous state is that of the live record when the state changed and else the one
that the event claims.

The key has a live record (`hprior`), without which nothing is recorded. The entries of the log were
written as entries (`hl`) and have the ids that are built from their keys and times (`hbuilt`). Entries
are compared by their ids, and one with another id could stand in the way of any event. -/
theorem recorded_iff (a : Archive) (now : Instant)
    (hprior : b.eventAt e.routingKey = .ok (some prior)) (hl : b.Logs l)
    (hbuilt : ∀ d ∈ l, ∃ rk t ev, d = .of rk t ev) :
    (a.process now e).Gives b fun added b' =>
      (added = true ↔
        (e.state ≠ prior.state ∨ ∃ s, e.previousState = some s ∧ s ≠ e.state) ∧
          ∀ d ∈ l, ¬ (d.routingKey = e.routingKey ∧ d.timestamp = e.timestamp.getD now)) ∧
      ∃ ev, b'.Logs (if added then l ++ [.of e.routingKey (e.timestamp.getD now) ev] else l) ∧
        ev.state = e.state ∧
        ev.previousState = if e.state = prior.state then e.previousState else some prior.state := by
  obtain ⟨d, -, hgives⟩ := gives_archived a now hprior
  refine hgives.weaken fun added b' harchived => ⟨?_, ?_⟩
  · have hid : b.holdsId (e.copy prior now).id = false ↔
        ∀ d ∈ l, ¬ (d.routingKey = e.routingKey ∧ d.timestamp = e.timestamp.getD now) := by
      rw [holdsId_of_logs hl, List.any_eq_false]
      refine forall₂_congr fun d hd => not_congr ?_
      obtain ⟨rk, t, ev, rfl⟩ := hbuilt d hd
      rw [decide_eq_true_eq]
      refine ⟨LogEntry.of_id_inj, ?_⟩
      rintro ⟨rfl, rfl⟩
      rfl
    rw [harchived.added_eq, Bool.and_eq_true, Bool.not_eq_true', Event.logged_arriving, hid]
  · refine ⟨_, harchived.logs hl, ?_, ?_⟩
    · exact e.arriving_state prior now
    · exact e.arriving_previousState prior now

/-- Another alert that claims to follow a healthy state. -/
def claimedChange : Event := { Event.webCheck 2 1100 with previousState := some .ok }

/-- The state of the live record stays what it was, and the event is recorded all the same. -/
theorem recorded_without_change :
    (archivedAll [.webCheck 2 1000]).glance webKey Event.state = .ok (some claimedChange.state) ∧
      (archivedAll [.webCheck 2 1000]).logAt webKey = .ok [] ∧
      (((⟨[]⟩ : Archive).process (atSecond 0) claimedChange).runOn
        (archivedAll [.webCheck 2 1000])).1 = .ok true ∧
      ((archivedAll [.webCheck 2 1000, claimedChange]).logAt webKey).map List.length = .ok 1 := by
  decide +kernel

theorem logs_oneCheck : oneCheck.Logs [] := by
  have hempty : (Backend.tables .empty).Logs [] := rfl
  exact logs_putEvent hempty webKey _

/-- An alert that gets less is recorded, with the state that it had before. -/
theorem recorded_iff_oneCheck :
    ((⟨[]⟩ : Archive).process (atSecond 1) (.webCheck 1 1100)).Gives oneCheck fun added b' =>
      added = true ∧ ∃ ev : Event, b'.Logs [.of webKey (atSecond 1100) ev] ∧
        ev.state = CheckState.ok.nearest 1 ∧ ev.previousState = some (CheckState.ok.nearest 2) := by
  have hkey : (Event.webCheck 1 1100).routingKey = webKey := by decide
  have hlaw := recorded_iff ⟨[]⟩ (atSecond 1) (e := .webCheck 1 1100) (hkey ▸ eventAt_oneCheck)
    logs_oneCheck (fun _ hd => nomatch hd)
  refine hlaw.weaken fun added b' ⟨hadded, ev, hlogs, hstate, hprevious⟩ => ?_
  have htrue : added = true := hadded.mpr ⟨Or.inl (by decide), fun _ hd => nomatch hd⟩
  subst htrue
  rw [hkey] at hlogs
  exact ⟨rfl, ev, hlogs, hstate, hprevious⟩

end Backend
end AlertStatus
