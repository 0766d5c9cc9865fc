import AlertStatus.Proofs.Engine.Lockstep
import AlertStatus.Proofs.Engine.Steps
import AlertStatus.Proofs.Store.Twins

/-!
# Sessions over either kind of store

A session is a run of commands, of the engine or of what stands below it, and of requests to the HTTP
interface. Over a store in memory and over one in tables it gets the same replies, command by command,
from an empty store on and behind the same plan of faults.

What it takes is that the events can be kept as texts. So the events that the run puts into the store are
asked to be textual: those that commands bring along, and those that updates make of live events. An event
that carries binary numbers may come back rounded from a text, and one that nests too deeply does not
come back at all.
-/

set_option autoImplicit false

namespace AlertStatus

open AlertStatus.Action

namespace Event

/-- The extra fields hold no binary numbers, and an event that holds them nests no deeper than its
reader goes. Such an event is read back from its text as it is. -/
def Textual (e : Event) : Prop :=
  ∀ m ∈ e.extra.fields.entries, m.2.plain = true ∧ m.2.depth < Json.depthLimit

instance (e : Event) : Decidable e.Textual := List.decidableBAll _ _

theorem Textual.carries {e : Event} (h : e.Textual) : e.Carries Json.Lasting := by
  intro k v hv
  obtain ⟨hplain, hdepth⟩ := h (k, v) (SortedMap.get?_eq_some_iff.mp hv)
  exact ⟨Json.stable_of_plain hplain, hdepth⟩

end Event

namespace Command

/-- Both kinds of store know the command: it neither counts, nor names single rows, nor opens tables
anew. -/
def portable : Command → Bool
  | .count | .row _ | .reopen => false
  | _ => true

/-- The event that a command brings along. -/
def given : Command → Option Event
  | .engine (.processEvent e) | .archive (.process e) | .store (.putEvent _ e) => some e
  | .store (.appendLog entry) => some entry.event
  | .request r => Router.posted r
  | _ => none

/-- The event that a command puts into the store `s`, if it puts one: the one it brings along, or what
an update makes of a live event. An update brings no event along, so it takes the store to say which
one it makes. -/
def brings (s : SessionStore) : Command → Option Event
  | .store (.updateEvent rk change) =>
    match s.store.eventAt rk with
    | .ok (some e) => e.update? change
    | _ => none
  | c => c.given

/-- The commands of a session at their clock times. -/
def runAt (e : Engine) (c : Instant × Command) : Action SessionStore Failure Reply := c.2.run e c.1

/-- The events that a run puts into the store `s`. -/
def allBrought (e : Engine) : List (Instant × Command) → SessionStore → List Event
  | [], _ => []
  | c :: cs, s => (c.2.brings s).toList ++ allBrought e cs ((runAt e c).runOn s).2

/-! ## One command -/

theorem runOn_updateEvent (e : Engine) (now : Instant) (rk : String) (change : Fields)
    (s : SessionStore) : ((Command.store (.updateEvent rk change)).run e now).runOn s =
      ((((Store.updateEvent rk change).runOn s).1.map fun _ => Reply.nothing).mapError .store,
        ((Store.updateEvent rk change).runOn s).2) := by
  show ((Reply.ofEffect (Store.updateEvent rk change)).rename Failure.store).runOn s = _
  rw [runOn_rename, runOn_ofEffect]

section Step

variable {s t : SessionStore} (hst : FaultyStore.Alike Backend.Twins s t)

include hst

/-- An update of the store itself, which may be any. -/
theorem run_updateEvent (rk : String) (change : Fields)
    (htextual : ∀ e, brings s (.store (.updateEvent rk change)) = some e → e.Textual) :
    ((Store.updateEvent rk change).runOn s).1 = ((Store.updateEvent rk change).runOn t).1 ∧
      FaultyStore.Alike Backend.Twins ((Store.updateEvent rk change).runOn s).2
        ((Store.updateEvent rk change).runOn t).2 := by
  obtain ⟨m, d, hm, hd, htwins⟩ := hst.2
  have hlive : ∀ e e', m.events.get? rk = some e → e.update? change = some e' →
      e'.Carries Json.Lasting := by
    intro e e' he he'
    refine (htextual e' ?_).carries
    have hfound : s.store.eventAt rk = .ok (some e) := by
      rw [hm]
      exact congrArg Except.ok he
    rw [brings, hfound]
    exact he'
  obtain ⟨heq, hR⟩ := htwins.updateEvent rk change hlive
  have hstore : ((Store.updateEvent rk change).runOn s.store).1 =
        ((Store.updateEvent rk change).runOn t.store).1 ∧
      Backend.Twins ((Store.updateEvent rk change).runOn s.store).2
        ((Store.updateEvent rk change).runOn t.store).2 ∧
      ∀ a, ((Store.updateEvent rk change).runOn s.store).1 = .ok a → True := by
    rw [hm, hd]
    exact ⟨heq, ⟨_, _, rfl, rfl, hR⟩, fun _ _ => trivial⟩
  obtain ⟨heq', hR', -⟩ := FaultyStore.guarded_alike hst .updateEvent rk hstore
  exact ⟨heq', hR'⟩

/-- **One command** gets the same reply over both stores, and they stay twins. The command is one that
both know (`hc`), and the event that it puts into the store, if it puts one, is textual
(`htextual`). -/
theorem run_twins (e : Engine) (now : Instant) {c : Command} (hc : c.portable = true)
    (htextual : ∀ ev, c.brings s = some ev → ev.Textual) :
    ((c.run e now).runOn s).1 = ((c.run e now).runOn t).1 ∧
      FaultyStore.Alike Backend.Twins ((c.run e now).runOn s).2 ((c.run e now).runOn t).2 := by
  have hwhole : Linked.Whole (FaultyStore.Alike Backend.Twins) Json.Lasting :=
    Backend.Twins.whole.guarded
  have hmatch {x y : Action SessionStore Failure Reply} {Q : Reply → Prop}
      (h : Matches (FaultyStore.Alike Backend.Twins) x y Q) :
      (x.runOn s).1 = (y.runOn t).1 ∧
        FaultyStore.Alike Backend.Twins (x.runOn s).2 (y.runOn t).2 :=
    ⟨(h s t hst).1, (h s t hst).2.1⟩
  cases c with
  | engine c =>
    refine hmatch ((hwhole.engine e now ?_).rename _)
    rintro ev rfl
    exact (htextual ev rfl).carries
  | tracker c => exact hmatch ((hwhole.tracker e.tracker c).rename _)
  | archive c =>
    refine hmatch ((hwhole.archiveCommand e.archive now ?_).rename _)
    rintro ev rfl
    exact (htextual ev rfl).carries
  | store c =>
    by_cases hupdate : ∃ rk change, c = .updateEvent rk change
    · obtain ⟨rk, change, rfl⟩ := hupdate
      obtain ⟨heq, hR⟩ := run_updateEvent hst rk change htextual
      rw [runOn_updateEvent, runOn_updateEvent, heq]
      exact ⟨rfl, hR⟩
    · refine hmatch ((hwhole.storeCommand ?_ ?_ ?_).rename _)
      · rintro rk ev rfl
        exact (htextual ev rfl).carries
      · exact fun rk change hc => absurd ⟨rk, change, hc⟩ hupdate
      · rintro entry rfl
        exact (htextual entry.event rfl).carries
  | request r =>
    exact hmatch ((Matches.total (hwhole.handle e now r fun ev hev => (htextual ev hev).carries)).map _)
  | fail f =>
    refine hmatch (matches_ofEffect (Matches.change fun s t hst => ⟨?_, hst.2⟩))
    exact congrArg (· ++ [f]) hst.1
  | heal => exact hmatch (matches_ofEffect (Matches.change fun _ _ hst => ⟨rfl, hst.2⟩))
  | count | row | reopen => cases hc

end Step

/-! ## Runs -/

theorem trace_twins (e : Engine) (run : List (Instant × Command))
    (hrun : ∀ c ∈ run, c.2.portable = true) {s t : SessionStore}
    (hst : FaultyStore.Alike Backend.Twins s t)
    (htextual : ∀ ev ∈ allBrought e run s, ev.Textual) :
    trace (runAt e) run s = trace (runAt e) run t := by
  induction run generalizing s t with
  | nil => rfl
  | cons c run ih =>
    obtain ⟨hfirst, hrest⟩ := List.forall_mem_append.mp htextual
    obtain ⟨hc, hcs⟩ := List.forall_mem_cons.mp hrun
    have hbrought : ∀ ev, c.2.brings s = some ev → ev.Textual :=
      fun ev hev => hfirst ev (Option.mem_toList.mpr hev)
    obtain ⟨heq, hR⟩ := run_twins hst e c.1 hc hbrought
    exact congrArg₂ (fun o l => (c, o) :: l) heq (ih hcs hR hrest)

/-- **Both kinds of store give the same replies**, at every step of every session from an empty store
on, whatever the commands, their times and the faults, as long as the events that the session puts into
the store are textual.

Three commands are left out (`hrun`), which look at the tables themselves and which a store in memory
does not know. The condition on events (`htextual`) is on those that updates make too.
`replies_differ_of_loadUpdate` is a session where only the events that commands bring along are
textual, and the replies differ. -/
theorem trace_memory_eq_tables (table : StatusTable) (p : Policy) (run : List (Instant × Command))
    (hrun : ∀ c ∈ run, c.2.portable = true)
    (htextual : ∀ ev ∈ allBrought (.of table p) run (.of (.memory .empty)), ev.Textual) :
    trace (runAt (.of table p)) run (.of (.memory .empty)) =
      trace (runAt (.of table p)) run (.of (.tables .empty)) :=
  trace_twins _ run hrun ⟨rfl, _, _, rfl, rfl, Twins.empty⟩ htextual

/-- A live event gets a note, one entry of its log is lost, and a sweep comes late. -/
def notedAlert : List (Instant × Command) :=
  [(atSecond 0, .store (.putEvent webKey (.webCheck 2 1000))),
    (atSecond 1, .store (.updateEvent webKey
      (.ofList [("note", .object [("ticket", .ofNat 7)]), ("output", .null)]))),
    (atSecond 2, .fail ⟨.appendLog, .backend, none, some 1⟩),
    (atSecond 3, .engine (.processEvent (.webCheck 0 1100))),
    (atSecond 4, .engine (.processEvent (.webCheck 2 1200))),
    (atSecond 5, .engine (.sweep (atSecond 5000))),
    (atSecond 6, .store (.getLog webKey))]

theorem trace_memory_eq_tables_notedAlert :
    (∀ c ∈ notedAlert, c.2.portable = true) ∧
      (∀ ev ∈ allBrought (.of .standard .standard) notedAlert (.of (.memory .empty)), ev.Textual) ∧
      trace (runAt (.of .standard .standard)) notedAlert (.of (.memory .empty)) =
        trace (runAt (.of .standard .standard)) notedAlert (.of (.tables .empty)) := by
  have hrun : ∀ c ∈ notedAlert, c.2.portable = true := by decide
  have htextual : ∀ ev ∈ allBrought (.of .standard .standard) notedAlert (.of (.memory .empty)),
      ev.Textual := by decide +kernel
  exact ⟨hrun, htextual, trace_memory_eq_tables .standard .standard notedAlert hrun htextual⟩

/-! ## Updates that are not textual -/

/-- An event that is put and updated, and then comes back as its store gives it. -/
theorem trace_update (rk : String) {b : Backend} {change : Fields} {e e' d : Event}
    (he : b.medium.Gives e e) (hu : e.update? change = some e') (hd : b.medium.Gives e' d) :
    (trace StoreCommand.run [.putEvent rk e, .updateEvent rk change, .getEvent rk] b).map Prod.snd =
      [.ok .nothing, .ok .nothing, .ok (.event (some d))] := by
  let b₁ := ((Store.putEvent rk e).runOn b).2
  let b₂ := ((Store.putEvent rk e').runOn b₁).2
  have hmedium : b₁.medium = b.medium := (Backend.sameStatuses_putEvent b rk e).medium
  have hlive₁ : b₁.eventAt rk = .ok (some e) := by rw [Backend.eventAt_putEvent he, if_pos rfl]
  have hlive₂ : b₂.eventAt rk = .ok (some d) := by
    rw [Backend.eventAt_putEvent (hmedium ▸ hd), if_pos rfl]
  have hput : (StoreCommand.putEvent rk e).run.runOn b = (.ok .nothing, b₁) := by
    rw [StoreCommand.run, runOn_ofEffect, Backend.runOn_putEvent]
    rfl
  have hupdate : (StoreCommand.updateEvent rk change).run.runOn b₁ = (.ok .nothing, b₂) := by
    rw [StoreCommand.run, runOn_ofEffect, Backend.runOn_updateEvent hlive₁ hu, Backend.runOn_putEvent]
    rfl
  have hget : (StoreCommand.getEvent rk).run.runOn b₂ = (.ok (.event (some d)), b₂) := by
    rw [StoreCommand.run, runOn_bind, Backend.runOn_getEvent, hlive₂]
    rfl
  rw [trace, hput, trace, hupdate, trace, hget]
  rfl

/-- The live event of a check with a load of which the significand is given. -/
def loaded (significand : Nat) : Event :=
  { Event.webCheck 2 1000 with
    extra := .of (.ofList [("load", .num (.float ⟨false, significand, -52⟩))]) }

theorem storable_loaded : (loaded 6305039478318695).Storable := by
  intro k v hv
  obtain ⟨rfl, rfl⟩ := Prod.mk.inj (List.mem_singleton.mp (SortedMap.get?_eq_some_iff.mp hv))
  exact ⟨⟨by decide, by decide, by decide⟩, by decide⟩

/-- A live event gets a load by an update. -/
def loadUpdate : List StoreCommand :=
  [.putEvent webKey (.webCheck 2 1000),
    .updateEvent webKey (.ofList [("load", .num (.float ⟨false, 6305039478318695, -52⟩))]),
    .getEvent webKey]

/-- **It does not do to ask only for textual events to be given.** An update can bring a binary number into
a live event, and what comes back from its text is the number below. -/
theorem replies_differ_of_loadUpdate :
    (∀ c ∈ loadUpdate, ∀ ev, (Command.store c).given = some ev → ev.Textual) ∧
      trace StoreCommand.run loadUpdate (Backend.memory .empty) ≠
        trace StoreCommand.run loadUpdate (Backend.tables .empty) := by
  have htextual : (Event.webCheck 2 1000).Textual := by decide
  have hupdate : (Event.webCheck 2 1000).update?
      (.ofList [("load", .num (.float ⟨false, 6305039478318695, -52⟩))]) =
      some (loaded 6305039478318695) := by decide +kernel
  have hread : readText Event (loaded 6305039478318695).toJson.text =
      .ok (loaded 6305039478318694) := by
    rw [Event.readText_toJson storable_loaded]
    exact congrArg Except.ok (by decide +kernel)
  constructor
  · intro c hc
    fin_cases hc
    · rintro ev ⟨⟩
      exact htextual
    · exact fun ev hev => nomatch (show none = some ev from hev)
    · exact fun ev hev => nomatch (show none = some ev from hev)
  · intro heq
    have hmemory := trace_update webKey (b := .memory .empty) rfl hupdate rfl
    have htables := trace_update webKey (b := .tables .empty)
      (Event.readText_of_lasting htextual.carries) hupdate hread
    have hsame := htables.symm.trans ((congrArg (List.map Prod.snd) heq).symm.trans hmemory)
    exact absurd hsame (by decide)

end Command
end AlertStatus
