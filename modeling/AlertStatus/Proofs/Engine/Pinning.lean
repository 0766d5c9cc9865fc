import AlertStatus.Proofs.Event.Retention
import AlertStatus.Proofs.Store.Custody

/-!
# Pinned states

An operator pins the state that a live record shows. It then stands, with its output, while alerts come
in and other things are marked on the record, and the next healthy event releases it
(`pinned_until_ok`).
-/

set_option autoImplicit false

namespace AlertStatus

open AlertStatus.Action

namespace Backend

variable {b₀ b : Backend} {rk : String} {s : CheckState} {o : Option String}

/-- The command brings no event under the key that is healthy or has a pin of its own. What operators
mark, and which status is set, does not matter to a pin. -/
def LeavesPin (rk : String) (c : ArchiveCommand) : Prop :=
  ∀ ev, c = .process ev → ev.routingKey = rk → ev.keepState = none ∧ ev.state ≠ .ok

theorem enduring_pinnedAt : Enduring fun e => e.PinnedAt s o where
  extra _ _ h := ⟨h.keepState, h.state, h.output⟩
  cancel _ _ _ h := ⟨h.keepState, h.state, h.output⟩
  status _ _ h := ⟨h.keepState, h.state, h.output⟩

/-- **Such a command leaves a pinned state**, whichever it is. An event that it brings has to be kept
by the store (`hkept`), so that the merged record is found again. -/
theorem ensures_pinned (a : Archive) (now : Instant) {c : ArchiveCommand}
    (hkept : ∀ ev, c = .process ev → b₀.medium.Keeps ev) (hc : LeavesPin rk c) :
    (c.run a now).Ensures (Custody b₀ rk (fun e => e.PinnedAt s o) fun _ => True) fun _ => True := by
  have hack (e : Event) (a : Option Remark) (h : e.PinnedAt s o) :
      Event.PinnedAt { e with ack := a } s o := ⟨h.keepState, h.state, h.output⟩
  cases c with
  | process ev =>
    refine Ensures.bind (P := fun _ => True) ?_ fun _ _ => Ensures.pure trivial
    by_cases hrk : ev.routingKey = rk
    · obtain ⟨hkeep, hstate⟩ := hc ev rfl hrk
      refine ensures_of_gives fun b hb => (hb.gives_archived a now hrk (hkept ev rfl)).weaken ?_
      rintro - b' ⟨prior, d, x, hprior, hd, hlive, l, hl, -⟩
      have hmerged : d.PinnedAt s o := hprior.merged hd (by simpa using hkeep) (by simpa using hstate)
      exact ⟨⟨_, hlive, enduring_pinnedAt.extra d x hmerged⟩, l, hl, fun _ _ => trivial⟩
    · exact ensures_process_of_ne a now hrk
  | acknowledge j ack =>
    exact (ensures_acknowledge enduring_pinnedAt j (fun _ => hack) ack).map _
  | removeAck j =>
    exact (ensures_removeAck enduring_pinnedAt j fun _ => hack).map _
  | markCanceled j cancel =>
    exact (ensures_markCanceled enduring_pinnedAt j cancel).map _
  | markUncanceled j v =>
    exact (ensures_markUncanceled enduring_pinnedAt j v).map _
  | setStatus j v => exact (ensures_setStatus enduring_pinnedAt j v).map _
  | event j => exact (ensures_getEvent j).map _
  | history j => exact (ensures_getLog j).map _

/-- The store after a run of commands of an archive. -/
def archivedBy (a : Archive) (run : List (Instant × ArchiveCommand)) (b : Backend) : Backend :=
  runAll (fun c => c.2.run a c.1) run b

/-- **A pinned state holds until the next healthy event.** Over a store of either kind, take a live
record that is pinned (`hpin`) and a run of the archive whose events of the key have no pin of their
own and are not healthy (`hrun`). After the run the live record is pinned still, with its state and its
output. A healthy event that comes then releases it: it is not pinned any more, and shows the healthy
state unless the state is excluded.

The events are ones that the store keeps (`hkept`). That is nothing in memory, and in tables it says
that they can be read back; every store keeps the events that come from texts
(`Medium.keeps_of_readText`). One that cannot be read back would leave no live record to be found,
pinned or not. Nothing is asked of the excluded fields, or of what the store holds under other keys. -/
theorem pinned_until_ok (a : Archive) {e : Event} (he : b.eventAt rk = .ok (some e))
    (hpin : e.keepState = some true) (run : List (Instant × ArchiveCommand))
    (hkept : ∀ c ∈ run, ∀ ev, c.2 = .process ev → b.medium.Keeps ev)
    (hrun : ∀ c ∈ run, LeavesPin rk c.2) :
    (∃ live, (archivedBy a run b).eventAt rk = .ok (some live) ∧ live.keepState = some true ∧
      live.state = e.state ∧ live.output = e.output) ∧
    ∀ now ev, b.medium.Keeps ev → ev.routingKey = rk → ev.keepState = none → ev.state = .ok →
      (a.process now ev).Gives (archivedBy a run b) fun _ b' =>
        ∃ live, b'.eventAt rk = .ok (some live) ∧ live.keepState = some false ∧
          live.state = if "state" ∈ a.excluded then e.state else .ok := by
  have hpinned : Custody b rk (fun d => d.PinnedAt e.state e.output) (fun _ => True)
      (archivedBy a run b) :=
    runAll_ensures run (fun c hc => ensures_pinned a c.1 (hkept c hc) (hrun c hc))
      (custody_self he ⟨hpin, rfl, rfl⟩)
  constructor
  · obtain ⟨live, hlive, hheld⟩ := hpinned.live
    exact ⟨live, hlive, hheld.keepState, hheld.state, hheld.output⟩
  · intro now ev hkeeps hrk hkeep hstate
    refine (hpinned.gives_archived a now hrk hkeeps).weaken ?_
    rintro - b' ⟨prior, d, x, hprior, hd, hlive, -⟩
    obtain ⟨hreleased, hshown⟩ := hprior.released hd (by simpa using hkeep) (by simpa using hstate)
    exact ⟨_, hlive, hreleased, hshown⟩

/-- An alert whose state an operator pinned. -/
def pinnedAlert : Event :=
  { Event.webCheck 1 1000 with keepState := some true, output := some "known issue" }

def onePin : Backend := ((Store.putEvent webKey pinnedAlert).runOn (blank .values)).2

/-- It gets worse, is acknowledged, gets another status, and is reported once more. -/
def worsening : List (Instant × ArchiveCommand) :=
  [(atSecond 1, .process { Event.webCheck 2 1010 with output := some "down" }),
    (atSecond 2, .acknowledge webKey ⟨"operator", none, atSecond 1015⟩),
    (atSecond 3, .setStatus webKey .flapping), (atSecond 4, .process (.webCheck 2 1020))]

/-- Through all of this the pinned state stands, and the recovery releases it. -/
theorem pinned_until_ok_worsening :
    (∃ live, (archivedBy ⟨[]⟩ worsening onePin).eventAt webKey = .ok (some live) ∧
      live.keepState = some true ∧ live.state = CheckState.ok.nearest 1 ∧
      live.output = some "known issue") ∧
    ((⟨[]⟩ : Archive).process (atSecond 5) (.webCheck 0 1100)).Gives (archivedBy ⟨[]⟩ worsening onePin)
      fun _ b' => ∃ live, b'.eventAt webKey = .ok (some live) ∧ live.keepState = some false ∧
        live.state = .ok := by
  have hlive : onePin.eventAt webKey = .ok (some pinnedAlert) := by
    have hgives : (blank .values).medium.Gives pinnedAlert pinnedAlert := rfl
    rw [onePin, eventAt_putEvent hgives, if_pos rfl]
  have hrun : ∀ c ∈ worsening, LeavesPin webKey c.2 := by
    intro c hc ev hev _
    fin_cases hc
    · cases hev
      exact ⟨rfl, by decide⟩
    · cases hev
    · cases hev
    · cases hev
      exact ⟨rfl, by decide⟩
  obtain ⟨hheld, hreleased⟩ :=
    pinned_until_ok ⟨[]⟩ hlive rfl worsening (fun _ _ _ _ => trivial) hrun
  exact ⟨hheld, hreleased (atSecond 5) (.webCheck 0 1100) trivial (by decide) rfl (by decide)⟩

end Backend
end AlertStatus
