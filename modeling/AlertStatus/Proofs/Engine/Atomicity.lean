import AlertStatus.Proofs.Engine.Failure
import AlertStatus.Proofs.Store.Archiving

/-!
# What a fault does to an event that is archived

Archiving an event reads its live record, writes that record at most once, and adds a copy to the log
(`Archive.process_eq`). Only the first two can be refused, and a write that is refused was not done. So a
fault either keeps the event out altogether, and `Archive.Barred` says when, or it can only cost the copy
(`Archive.process_atomic`).
-/

set_option autoImplicit false

namespace AlertStatus

open AlertStatus.Action

/-! ## 1. The steps of archiving an event -/

namespace Archive

variable (a : Archive) (now : Instant) (e : Event)

section Steps

variable {σ : Type} [Store σ]

/-- Brings the live record up to date, if the event changes anything in it. -/
def write : Option Event → Action σ StoreError Unit
  | none =>
    Store.putEvent e.routingKey { e.identified now with lastStateChange := some (e.timestamp.getD now) }
  | some prior =>
    if ((e.arriving prior now).changeOf a.excluded prior).isEmpty then pure ()
    else Store.updateEvent e.routingKey ((e.arriving prior now).changeOf a.excluded prior)

/-- The copy for the log, if there is to be one. -/
def copyFor : Option Event → Option LogEntry
  | none => none
  | some prior => if logged (e.arriving prior now) then some (e.copy prior now) else none

/-- Adds a copy to the log, if there is one and as far as it goes. -/
def enter : Option LogEntry → Action σ StoreError Bool
  | none => pure false
  | some copy => tryAppend copy

theorem process_eq : (a.process now e : Action σ StoreError Bool) =
    Store.getEvent e.routingKey >>= fun prior =>
      a.write now e prior >>= fun _ => enter (copyFor now e prior) := by
  refine congrArg (Store.getEvent e.routingKey >>= ·) (funext fun o => ?_)
  cases o with
  | none => rfl
  | some prior =>
    have hcopy : enter (copyFor now e (some prior)) = (if logged (e.arriving prior now) then
        tryAppend (e.copy prior now) else pure false : Action σ StoreError Bool) := by
      dsimp only [copyFor]
      split <;> rfl
    rw [hcopy]
    by_cases hchange : ((e.arriving prior now).changeOf a.excluded prior).isEmpty = true
    · have hwrite : (a.write now e (some prior) : Action σ StoreError Unit) = pure () := if_pos hchange
      rw [hwrite]
      exact if_pos hchange
    · have hwrite : (a.write now e (some prior) : Action σ StoreError Unit) =
        Store.updateEvent e.routingKey _ := if_neg hchange
      rw [hwrite]
      exact if_neg hchange

end Steps

/-- The write that an event needs, given its live record. An event that changes nothing in it needs
none, so no fault of a write can keep it out. -/
def needs : Option Event → Option StoreMethod
  | none => some .putEvent
  | some prior =>
    if ((e.arriving prior now).changeOf a.excluded prior).isEmpty then none else some .updateEvent

end Archive

/-- A fault of the plan strikes the operation. -/
def FaultyStore.Struck {σ : Type} (s : FaultyStore σ) (method : StoreMethod) (key : String) : Prop :=
  ∃ struck, Fault.strike method key s.faults = some struck

/-- What keeps an event from being archived: its live record cannot be read, or the write that it needs
is struck. -/
inductive Archive.Barred (a : Archive) (now : Instant) (e : Event) (s : FaultyStore Backend) : Prop where
  | unread (h : s.Struck .getEvent e.routingKey)
  | unreadable (err : StoreError) (h : s.store.eventAt e.routingKey = .error err)
  | unwritten (prior : Option Event) (method : StoreMethod)
    (hlive : s.store.eventAt e.routingKey = .ok prior) (hneeds : a.needs now e prior = some method)
    (h : s.Struck method e.routingKey)

namespace Backend

/-- The stores are of one kind and have the same live events. -/
def SameLive : Backend → Backend → Prop
  | .memory s, .memory s' => s'.events = s.events
  | .tables s, .tables s' => s'.events = s.events
  | _, _ => False

/-- The stores are of one kind, and the log has got the entries `l` at its end. -/
def Gained (l : List LogEntry) : Backend → Backend → Prop
  | .memory s, .memory s' => s'.log = s.log ++ l
  | .tables s, .tables s' => s'.log = s.log ++ l.map LogRow.of
  | _, _ => False

theorem SameLive.refl (b : Backend) : b.SameLive b := by
  cases b <;> rfl

theorem SameLive.of_common {b b₁ b₂ : Backend} (h₁ : b.SameLive b₁) (h₂ : b.SameLive b₂) :
    b₁.SameLive b₂ := by
  match b, b₁, b₂, h₁, h₂ with
  | .memory _, .memory _, .memory _, h₁, h₂ => exact Eq.trans h₂ (Eq.symm h₁)
  | .tables _, .tables _, .tables _, h₁, h₂ => exact Eq.trans h₂ (Eq.symm h₁)

theorem sameLive_addEntry (b : Backend) (entry : LogEntry) : b.SameLive (b.addEntry entry) := by
  cases b <;> rfl

theorem gained_nil (b : Backend) : Gained [] b b := by
  cases b <;> exact (List.append_nil _).symm

theorem gained_addEntry (b : Backend) (entry : LogEntry) : Gained [entry] b (b.addEntry entry) := by
  cases b <;> rfl

theorem gained_putEvent (b : Backend) (rk : String) (e : Event) :
    Gained [] b ((Store.putEvent rk e).runOn b).2 := by
  cases b <;> exact (List.append_nil _).symm

theorem Gained.after {b b₁ b' : Backend} {l : List LogEntry} (h : Gained l b₁ b')
    (hfirst : Gained [] b b₁) : Gained l b b' := by
  match b, b₁, b', hfirst, h with
  | .memory s, .memory s₁, .memory s', hfirst, h =>
    have hlog : s₁.log = s.log := Eq.trans hfirst (List.append_nil _)
    exact Eq.trans h (congrArg (· ++ l) hlog)
  | .tables s, .tables s₁, .tables s', hfirst, h =>
    have hlog : s₁.log = s.log := Eq.trans hfirst (List.append_nil _)
    exact Eq.trans h (congrArg (· ++ l.map LogRow.of) hlog)

end Backend

namespace Archive

variable {a : Archive} {now : Instant} {e : Event} {s : FaultyStore Backend} {prior : Option Event}

/-! ## 2. The live record -/

theorem runOn_write_of_struck {method : StoreMethod} (hneeds : a.needs now e prior = some method)
    (h : s.Struck method e.routingKey) :
    ∃ err faults, (a.write now e prior).runOn s = (.error err, { s with faults }) := by
  obtain ⟨⟨err, faults⟩, hstrike⟩ := h
  refine ⟨err, faults, ?_⟩
  cases prior with
  | none =>
    cases hneeds
    exact FaultyStore.guarded_of_strike hstrike
  | some prior =>
    dsimp only [needs] at hneeds
    dsimp only [write]
    split at hneeds
    · cases hneeds
    · rename_i hchange
      cases hneeds
      rw [if_neg hchange]
      exact FaultyStore.guarded_of_strike hstrike

/-- A write that is not struck is done as without faults, and the log is left to the copy. -/
theorem runOn_write_of_free (hlive : s.store.eventAt e.routingKey = .ok prior)
    (h : ∀ method, a.needs now e prior = some method → ¬ s.Struck method e.routingKey) :
    ∃ b, (a.write now e prior).runOn s.store = (.ok (), b) ∧
      (a.write now e prior).runOn s = (.ok (), { s with store := b }) ∧ s.store.Gained [] b := by
  have hfree (method : StoreMethod) (hneeds : a.needs now e prior = some method) :
      Fault.strike method e.routingKey s.faults = none :=
    Option.eq_none_iff_forall_ne_some.mpr fun struck hstrike => h method hneeds ⟨struck, hstrike⟩
  cases prior with
  | none =>
    have hput := Backend.runOn_putEvent s.store e.routingKey
      { e.identified now with lastStateChange := some (e.timestamp.getD now) }
    refine ⟨_, Prod.ext hput rfl, ?_, Backend.gained_putEvent _ _ _⟩
    exact (FaultyStore.guarded_of_pass (hfree .putEvent rfl)).trans (Prod.ext hput rfl)
  | some prior =>
    dsimp only [needs] at hfree
    dsimp only [write]
    split
    · exact ⟨_, rfl, rfl, Backend.gained_nil _⟩
    · rename_i hchange
      rw [if_neg hchange] at hfree
      obtain ⟨d, hd, -, -⟩ := Event.exists_merged a.excluded (e.arriving prior now) prior
      have hupdate := Backend.runOn_updateEvent hlive hd
      have hput := Backend.runOn_putEvent s.store e.routingKey d
      refine ⟨_, Prod.ext (hupdate ▸ hput) rfl, ?_, ?_⟩
      · exact (FaultyStore.guarded_of_pass (hfree .updateEvent rfl)).trans
          (Prod.ext (hupdate ▸ hput) rfl)
      · rw [hupdate]
        exact Backend.gained_putEvent _ _ _

/-! ## 3. The copy -/

theorem runOn_enter (copy : Option LogEntry) (b : Backend) :
    ∃ added b', (enter copy).runOn b = (.ok added, b') ∧ b.SameLive b' ∧
      ∃ l, b.Gained l b' ∧ l.length = added.toNat := by
  cases copy with
  | none => exact ⟨false, b, rfl, .refl b, [], Backend.gained_nil b, rfl⟩
  | some copy =>
    obtain ⟨added, b', hrun, hadded, rfl⟩ := Backend.gives_tryAppend b copy
    refine ⟨added, _, hrun, ?_⟩
    cases added with
    | false => exact ⟨.refl b, [], Backend.gained_nil b, rfl⟩
    | true => exact ⟨Backend.sameLive_addEntry b copy, [copy], Backend.gained_addEntry b copy, rfl⟩

/-- Behind a plan the copy is added as without one, or it is lost and nothing else happens. -/
theorem runOn_enter_faulty (copy : Option LogEntry) (s : FaultyStore Backend) :
    ∃ added s', (enter copy).runOn s = (.ok added, s') ∧ s.store.SameLive s'.store ∧
      ∃ l, s.store.Gained l s'.store ∧ l.length = added.toNat := by
  cases copy with
  | none => exact ⟨false, s, rfl, .refl _, [], Backend.gained_nil _, rfl⟩
  | some copy =>
    cases hstrike : Fault.strike .appendLog copy.routingKey s.faults with
    | some struck =>
      have hrun : (Store.appendLog copy).runOn s = (.error struck.1, { s with faults := struck.2 }) :=
        FaultyStore.guarded_of_strike hstrike
      refine ⟨false, { s with faults := struck.2 }, ?_, .refl _, [], Backend.gained_nil _, rfl⟩
      show (tryAppend copy).runOn s = _
      rw [tryAppend, runOn_bind, runOn_attempt, hrun]
      rfl
    | none =>
      obtain ⟨added, b', hrun, hlive, hlog⟩ := runOn_enter (some copy) s.store
      have hpass : (Store.appendLog copy).runOn s = (((Store.appendLog copy).runOn s.store).1,
          { s with store := ((Store.appendLog copy).runOn s.store).2 }) :=
        FaultyStore.guarded_of_pass hstrike
      have hplain : (tryAppend copy).runOn s.store = (.ok added, b') := hrun
      rw [tryAppend, runOn_bind, runOn_attempt] at hplain
      obtain ⟨hadded, hb'⟩ := Prod.mk.inj hplain
      refine ⟨added, { s with store := b' }, ?_, hlive, hlog⟩
      show (tryAppend copy).runOn s = _
      rw [tryAppend, runOn_bind, runOn_attempt, hpass]
      exact Prod.ext hadded (congrArg (FaultyStore.mk s.faults) hb')

/-! ## 4. The event -/

theorem runOn_process_of_barred (h : a.Barred now e s) :
    ∃ err s', (a.process now e).runOn s = (.error err, s') ∧ s'.store = s.store := by
  rw [process_eq, runOn_bind]
  cases hread : Fault.strike .getEvent e.routingKey s.faults with
  | some struck =>
    rw [show (Store.getEvent e.routingKey).runOn s = _ from FaultyStore.guarded_of_strike hread]
    exact ⟨_, _, rfl, rfl⟩
  | none =>
    rw [show (Store.getEvent e.routingKey).runOn s = _ from FaultyStore.guarded_of_pass hread,
      Backend.runOn_getEvent]
    cases h with
    | unread h =>
      obtain ⟨struck, h⟩ := h
      rw [h] at hread
      cases hread
    | unreadable err h =>
      rw [h]
      exact ⟨_, _, rfl, rfl⟩
    | unwritten prior method hlive hneeds h =>
      obtain ⟨err, faults, hwrite⟩ := runOn_write_of_struck hneeds h
      rw [hlive]
      dsimp only
      rw [runOn_bind, hwrite]
      exact ⟨_, _, rfl, rfl⟩

theorem runOn_process_of_not_barred (h : ¬ a.Barred now e s) :
    ∃ added s', (a.process now e).runOn s = (.ok added, s') ∧
      (∃ plain b, (a.process now e).runOn s.store = (.ok plain, b) ∧ b.SameLive s'.store) ∧
      ∃ l, s.store.Gained l s'.store ∧ l.length = added.toNat := by
  have hread : Fault.strike .getEvent e.routingKey s.faults = none :=
    Option.eq_none_iff_forall_ne_some.mpr fun struck hstrike => h (.unread ⟨struck, hstrike⟩)
  rw [process_eq, process_eq, runOn_bind, runOn_bind, Backend.runOn_getEvent,
    show (Store.getEvent e.routingKey).runOn s = _ from FaultyStore.guarded_of_pass hread,
    Backend.runOn_getEvent]
  cases hlive : s.store.eventAt e.routingKey with
  | error err => exact absurd (.unreadable err hlive) h
  | ok prior =>
    obtain ⟨b₁, hplain, hwrite, hkept⟩ := runOn_write_of_free hlive fun method hneeds hstruck =>
      h (.unwritten prior method hlive hneeds hstruck)
    obtain ⟨added, s', henter, hsame, l, hlog, hlength⟩ :=
      runOn_enter_faulty (copyFor now e prior) { s with store := b₁ }
    obtain ⟨plain, b, henter', hsame', -⟩ := runOn_enter (copyFor now e prior) b₁
    dsimp only
    rw [runOn_bind, runOn_bind, hplain, hwrite]
    exact ⟨added, s', henter, ⟨plain, b, henter', hsame'.of_common hsame⟩, l, hlog.after hkept, hlength⟩

/-- **An event is kept out, and then nothing changed, or its live record is what it would be without
faults.** It is kept out exactly when it is barred, which no fault of the log has a part in. The result
says how many entries the log got.

This holds of every event over every store and behind every plan of faults. No assumption is made on
what the store holds, as a live record that cannot be read is one of the ways to be barred. -/
theorem process_atomic (a : Archive) (now : Instant) (e : Event) (s : FaultyStore Backend) :
    (∀ err s', (a.process now e).runOn s = (.error err, s') → s'.store = s.store) ∧
      (∀ added s', (a.process now e).runOn s = (.ok added, s') →
        (∃ plain b, (a.process now e).runOn s.store = (.ok plain, b) ∧ b.SameLive s'.store) ∧
          ∃ l, s.store.Gained l s'.store ∧ l.length = added.toNat) ∧
      ((∃ err, ((a.process now e).runOn s).1 = .error err) ↔ a.Barred now e s) := by
  by_cases hbarred : a.Barred now e s
  · obtain ⟨err, s', hrun, hleft⟩ := runOn_process_of_barred hbarred
    rw [hrun]
    refine ⟨?_, nofun, fun _ => hbarred, fun _ => ⟨err, rfl⟩⟩
    rintro _ _ ⟨⟩
    exact hleft
  · obtain ⟨added, s', hrun, hdone⟩ := runOn_process_of_not_barred hbarred
    rw [hrun]
    refine ⟨nofun, ?_, nofun, fun h => absurd h hbarred⟩
    rintro _ _ ⟨⟩
    exact hdone

end Archive
end AlertStatus
