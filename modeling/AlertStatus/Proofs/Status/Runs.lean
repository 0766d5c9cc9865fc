import AlertStatus.Proofs.Status.Coherence
import AlertStatus.Proofs.Status.Moves

/-!
# Runs of the tracker

Every record that the tracker stores is coherent, whatever it was asked before, in whatever order of
times, and whichever calls of the store failed. The invariant of one entity is what its look-up gives
(`Backend.Tracks`): no record yet, or a coherent one. A command keeps it because each of its moves
leads from coherent records to coherent ones.

Other entities are left open. They may hold records that nobody checked, or rows that cannot be read.
-/

set_option autoImplicit false

namespace AlertStatus

/-! ## 1. The built-in table -/

namespace StatusTable

/-- Each built-in status is processed by its own rule. -/
theorem ruleOf_standard (r : StatusRecord) : standard.ruleOf r = .ok r.value := by
  unfold ruleOf
  cases r.value <;> decide

end StatusTable

namespace Tracker

variable {p : Policy} {id : String}

/-- Under the built-in table a check that is not stale takes one step of the machine. -/
theorem advance_standard (p : Policy) (r : StatusRecord) (c : Check) :
    (⟨.standard, p⟩ : Tracker).advance r c = .ok (r.next p c) := by
  unfold advance
  rw [StatusTable.ruleOf_standard]
  rfl

end Tracker

/-! ## 2. The invariant of one entity -/

/-- The store has no record of the entity, or a coherent one. It says that the look-up of the entity
succeeds, and nothing about any other row. -/
def Backend.Tracks (p : Policy) (id : String) (b : Backend) : Prop :=
  ∃ o, b.recordAt id = .ok o ∧ ∀ r, o = some r → r.Coherent p

namespace Tracker

variable {p : Policy} {id : String}

/-- The invariant of an entity in a session, behind its plan of faults. -/
def Tracked (p : Policy) (id : String) (s : SessionStore) : Prop := s.store.Tracks p id

/-- **Every move leads to a coherent record.** Only a check looks at the time: it is not older than the
record, which is what a step of the machine asks for. -/
theorem Move.coherent {c : TrackerCommand} {o : Option StatusRecord} {r' : StatusRecord}
    (hm : Move ⟨.standard, p⟩ id c o r') (ho : ∀ r, o = some r → r.Coherent p) : r'.Coherent p := by
  cases hm with
  | first => exact (StatusRecord.coherent_first _ _).withKey _
  | next _ hc hr =>
    rw [advance_standard] at hr
    cases hr
    exact ((ho _ rfl).next hc).withKey _
  | cancel _ time => exact (ho _ rfl).cancel time
  | restore time => exact StatusRecord.coherent_restored _ time
  | resolve => exact (ho _ rfl).resolve

/-! ## 3. Runs -/

/-- **One command of the tracker** keeps the invariant of every entity. -/
theorem ensures_run (c : TrackerCommand) :
    (c.run ⟨.standard, p⟩ : Action SessionStore StatusError _).Ensures (Tracked p id)
      fun _ => True := by
  rintro s ⟨o, ho, hcoh⟩
  refine ⟨?_, fun _ _ => trivial⟩
  rcases holds_run (t := ⟨.standard, p⟩) c ho with hkept | ⟨-, r, hr, hmove⟩
  · exact ⟨o, hkept, hcoh⟩
  · refine ⟨some r, hr, ?_⟩
    rintro r' ⟨⟩
    exact hmove.coherent hcoh

/-- **Every record that a run stores is coherent.** The run may be of any commands at any times, the
plan of faults any plan, and the rest of the store in any state. Nothing is asked of the thresholds.

The entity has no record at first (`hs`). The tracker goes on from whatever record it finds, and one
that it did not write itself need not be coherent. -/
theorem coherent_of_run (p : Policy) (id : String) (run : List TrackerCommand) (s : SessionStore)
    (hs : s.store.recordAt id = .ok none) :
    ∃ o, (Action.runAll (TrackerCommand.run ⟨.standard, p⟩) run s).store.recordAt id = .ok o ∧
      ∀ r, o = some r → r.Coherent p := by
  have htracked : Tracked p id s := by
    refine ⟨none, hs, ?_⟩
    intro r h
    cases h
  exact Action.runAll_ensures run (fun c _ => ensures_run c) htracked

/-- A run that cancels at a time before the alert, after which an older check counts again. -/
theorem coherent_of_run_set_back :
    (FaultyStore.of (Backend.memory .empty)).store.recordAt "/host" = .ok none ∧
      ∃ o, (Action.runAll (TrackerCommand.run ⟨.standard, .standard⟩)
        [.process "/host" "h" ⟨⟨2, by decide, by decide⟩, ⟨1000, by decide, by decide⟩⟩,
          .cancel "/host" ⟨-5, by decide, by decide⟩,
          .process "/host" "h" ⟨⟨1, by decide, by decide⟩, ⟨10, by decide, by decide⟩⟩,
          .expire "/host" ⟨9000, by decide, by decide⟩]
        (FaultyStore.of (Backend.memory .empty))).store.recordAt "/host" = .ok o ∧
      ∀ r, o = some r → r.Coherent .standard :=
  ⟨rfl, coherent_of_run .standard "/host" _ _ rfl⟩

end Tracker
end AlertStatus
