import AlertStatus.Proofs.Event.Document
import AlertStatus.Proofs.Event.Update
import AlertStatus.Proofs.Store.Records

/-!
# What a store shows

A `World` is what can be seen of a store by look-ups: the record of each entity and the live event of
each routing key. `Backend.Reflects` ties a store of either kind to a world. `Succeeds` and `Tries` say
of an action which worlds it leads to from a given one, the first of an action that is never refused.
There is one law for each operation of a store, and above them nothing depends on the kind any more.

The kind matters in one place. A store in tables keeps texts, so of an event it can keep only what is
read back, and what comes back may differ in the binary numbers of extra fields (`Medium.Keeps`,
`Medium.Gives`). No rule of the engine looks at extra fields, so the laws leave them open.
-/

set_option autoImplicit false

namespace AlertStatus

/-! ## 1. Worlds -/

/-- The record of each entity and the live event of each routing key. -/
structure World where
  record : String → Option StatusRecord
  live : String → Option Event

namespace World

/-- Nothing is known yet. -/
def empty : World := ⟨fun _ => none, fun _ => none⟩

/-- The world with another record for one entity. -/
def setRecord (w : World) (id : String) (r : StatusRecord) : World :=
  { w with record := fun j => if j = id then some r else w.record j }

/-- The world with another live event for one routing key. -/
def setLive (w : World) (rk : String) (e : Event) : World :=
  { w with live := fun j => if j = rk then some e else w.live j }

variable (w : World) (id rk j : String) (r : StatusRecord) (e : Event)

@[simp] theorem record_setRecord :
    (w.setRecord id r).record j = if j = id then some r else w.record j := rfl

@[simp] theorem live_setRecord : (w.setRecord id r).live = w.live := rfl

@[simp] theorem live_setLive : (w.setLive rk e).live j = if j = rk then some e else w.live j := rfl

@[simp] theorem record_setLive : (w.setLive rk e).record = w.record := rfl

/-- A live event of the changed world is the new one or was live before. -/
theorem of_live_setLive {w : World} {rk j : String} {e d : Event}
    (h : (w.setLive rk e).live j = some d) : j = rk ∧ e = d ∨ w.live j = some d := by
  rw [live_setLive] at h
  split at h
  · rename_i hj
    exact Or.inl ⟨hj, Option.some.inj h⟩
  · exact Or.inr h

theorem setRecord_self {w : World} {id : String} {r : StatusRecord} (h : w.record id = some r) :
    w.setRecord id r = w := by
  have hrecord : (w.setRecord id r).record = w.record := by
    funext j
    rw [record_setRecord]
    split
    · rename_i hj
      rw [hj, h]
    · rfl
  exact congrArg (World.mk · w.live) hrecord

theorem setLive_self {w : World} {rk : String} {e : Event} (h : w.live rk = some e) :
    w.setLive rk e = w := by
  have hlive : (w.setLive rk e).live = w.live := by
    funext j
    rw [live_setLive]
    split
    · rename_i hj
      rw [hj, h]
    · rfl
  exact congrArg (World.mk w.record) hlive

end World

/-! ## 2. Kinds of store -/

/-- How a store keeps what is put there. -/
inductive Medium where
  | values
  | texts
deriving DecidableEq

namespace Medium

/-- The events that come back when they are put into the store. In memory all of them do. From a text
an event comes back when its extra fields can be read back, which is so of every event that was read
from a text itself (`keeps_of_readText`).

Results about runs ask this of the events that the run brings. One that does not come back would be
written, and from then on every look-up of its live event would fail. -/
def Keeps (m : Medium) (e : Event) : Prop :=
  match m with
  | .values => True
  | .texts => e.Storable

/-- The event `d` is what comes back of `e`: the event itself in memory, and in tables what is read
from its text. -/
def Gives (m : Medium) (e d : Event) : Prop :=
  match m with
  | .values => d = e
  | .texts => readText Event e.toJson.text = .ok d

/-- **Of an event that a store keeps, all but the extra fields comes back as it was**, and what comes
back is kept again. -/
theorem Keeps.gives {m : Medium} {e : Event} (h : m.Keeps e) :
    ∃ x, m.Gives e { e with extra := x } ∧ m.Keeps { e with extra := x } := by
  cases m with
  | values => exact ⟨e.extra, rfl, trivial⟩
  | texts => exact ⟨_, Event.readText_toJson h, Event.Storable.reread h⟩

/-- **Every store keeps the events that come from texts**, and so what a run of requests brings. The
reader makes sound documents only, and none that is deeper than it goes. -/
theorem keeps_of_readText (m : Medium) {t : String} {e : Event} (h : readText Event t = .ok e) :
    m.Keeps e := by
  cases m with
  | values => trivial
  | texts => exact Event.storable_of_readText h

/-- Only the extra fields of an event matter. -/
theorem Keeps.of_extra {m : Medium} {e d : Event} (h : m.Keeps e) (hx : d.extra = e.extra) :
    m.Keeps d := by
  cases m with
  | values => trivial
  | texts =>
    intro k v hv
    rw [hx] at hv
    exact h k v hv

end Medium

/-- A value that is found in a cell of a table was read from the text there. -/
theorem TableStore.readText_of_decodeOption {α : Type} [Readable α] {doc : Option String} {a : α}
    (h : TableStore.decodeOption doc = .ok (some a)) : ∃ t, doc = some t ∧ readText α t = .ok a := by
  cases doc with
  | none => cases h
  | some t =>
    unfold decodeOption decode at h
    dsimp only at h
    cases hread : readText α t with
    | error x =>
      rw [hread] at h
      cases h
    | ok b =>
      rw [hread] at h
      cases h
      exact ⟨t, rfl, hread⟩

namespace Backend

/-- How the store keeps its contents. -/
def medium : Backend → Medium
  | .memory _ => .values
  | .tables _ => .texts

/-- What the look-up of a live event gives. -/
def eventAt (b : Backend) (rk : String) : Except StoreError (Option Event) :=
  ((Store.getEvent rk).runOn b).1

theorem runOn_getEvent (b : Backend) (rk : String) :
    (Store.getEvent rk).runOn b = (b.eventAt rk, b) := by
  cases b <;> rfl

/-- The store keeps its contents as `m` does and shows the world `w`. So every record and every live
event in it can be read, and the live events that are read are ones that it keeps. -/
structure Reflects (m : Medium) (w : World) (b : Backend) : Prop where
  medium : b.medium = m
  records : ∀ id, b.recordAt id = .ok (w.record id)
  events : ∀ rk, b.eventAt rk = .ok (w.live rk)
  kept : ∀ rk e, w.live rk = some e → m.Keeps e

/-- Every store in memory shows a world, whatever is in it. -/
theorem reflects_memory (s : MemoryStore) :
    (memory s).Reflects .values ⟨s.statuses.get?, s.events.get?⟩ where
  medium := rfl
  records := fun _ => rfl
  events := fun _ => rfl
  kept := fun _ _ _ => trivial

theorem SameStatuses.medium {b b' : Backend} (h : b.SameStatuses b') : b'.medium = b.medium := by
  match b, b', h with
  | .memory _, .memory _, _ => rfl
  | .tables _, .tables _, _ => rfl

theorem medium_putStatus (b : Backend) (id : String) (r : StatusRecord) :
    ((Store.putStatus id r).runOn b).2.medium = b.medium := by
  cases b <;> rfl

theorem eventAt_putStatus (b : Backend) (id : String) (r : StatusRecord) (rk : String) :
    ((Store.putStatus id r).runOn b).2.eventAt rk = b.eventAt rk := by
  cases b <;> rfl

/-- A live event that was put is found as it comes back, and no other one is touched. -/
theorem eventAt_putEvent {b : Backend} {rk : String} {e d : Event} (h : b.medium.Gives e d)
    (j : String) :
    ((Store.putEvent rk e).runOn b).2.eventAt j = if j = rk then .ok (some d) else b.eventAt j := by
  cases b with
  | memory s =>
    cases h
    show Except.ok ((s.events.insert rk e).get? j) = _
    rw [SortedMap.get?_insert]
    split <;> rfl
  | tables s =>
    show TableStore.decodeOption ((s.events.insert rk e.toJson.text).get? j) = _
    rw [SortedMap.get?_insert]
    split
    · have hread : readText Event e.toJson.text = .ok d := h
      rw [TableStore.decodeOption, TableStore.decode, hread]
      rfl
    · rfl

theorem runOn_putEvent (b : Backend) (rk : String) (e : Event) :
    ((Store.putEvent rk e).runOn b).1 = .ok () := by
  cases b <;> rfl

/-- **An update** is refused, or puts what it makes of the live event. -/
theorem runOn_updateEvent_eq (b : Backend) (rk : String) (change : Fields) :
    (Store.updateEvent rk change).runOn b =
      match b.eventAt rk with
      | .error e => (.error e, b)
      | .ok none => (.error .notFound, b)
      | .ok (some e) =>
        match e.update? change with
        | none => (.error .encoding, b)
        | some e' => (Store.putEvent rk e').runOn b := by
  cases b with
  | memory s =>
    have hlive : (Backend.memory s).eventAt rk = .ok (s.events.get? rk) := rfl
    rw [hlive]
    show (((Action.become fun s : MemoryStore => s.updateEvent rk change).runOn s).1,
      Backend.memory ((Action.become fun s : MemoryStore => s.updateEvent rk change).runOn s).2) = _
    rw [Action.runOn_become, MemoryStore.updateEvent]
    cases s.events.get? rk with
    | none => rfl
    | some e =>
      dsimp only
      cases e.update? change <;> rfl
  | tables s =>
    have hlive : (Backend.tables s).eventAt rk = TableStore.decodeOption (s.events.get? rk) := rfl
    rw [hlive]
    show (((Action.become fun s : TableStore => s.updateEvent rk change).runOn s).1,
      Backend.tables ((Action.become fun s : TableStore => s.updateEvent rk change).runOn s).2) = _
    rw [Action.runOn_become, TableStore.updateEvent]
    cases s.events.get? rk with
    | none => rfl
    | some doc =>
      dsimp only [TableStore.decodeOption]
      cases (TableStore.decode doc : Except StoreError Event) with
      | error e => rfl
      | ok e =>
        dsimp only [Except.map]
        cases e.update? change <;> rfl

/-- What a partial update can do: it is refused and nothing happens, or the updated event is put. -/
theorem updateEvent_cases {b b' : Backend} {rk : String} {change : Fields}
    {o : Except StoreError Unit} (h : (Store.updateEvent rk change).runOn b = (o, b')) :
    ((∃ x, o = .error x) ∧ b' = b ∧ ∀ e, b.eventAt rk = .ok (some e) → e.update? change = none) ∨
      ∃ e d, b.eventAt rk = .ok (some e) ∧ e.update? change = some d ∧ o = .ok () ∧
        b' = ((Store.putEvent rk d).runOn b).2 := by
  rw [runOn_updateEvent_eq] at h
  cases hlive : b.eventAt rk with
  | error x =>
    rw [hlive] at h
    cases h
    exact Or.inl ⟨⟨_, rfl⟩, rfl, fun _ he => nomatch he⟩
  | ok prior =>
    rw [hlive] at h
    cases prior with
    | none =>
      cases h
      exact Or.inl ⟨⟨_, rfl⟩, rfl, fun _ he => nomatch he⟩
    | some e =>
      dsimp only at h
      cases hupdate : e.update? change with
      | none =>
        rw [hupdate] at h
        cases h
        refine Or.inl ⟨⟨_, rfl⟩, rfl, ?_⟩
        rintro _ ⟨⟩
        exact hupdate
      | some d =>
        rw [hupdate] at h
        refine Or.inr ⟨e, d, rfl, hupdate, ?_, (congrArg Prod.snd h).symm⟩
        exact (congrArg Prod.fst h).symm.trans (runOn_putEvent b rk d)

/-- A partial update of a live event puts the updated event in its place. -/
theorem runOn_updateEvent {b : Backend} {rk : String} {change : Fields} {e e' : Event}
    (he : b.eventAt rk = .ok (some e)) (hu : e.update? change = some e') :
    (Store.updateEvent rk change).runOn b = (Store.putEvent rk e').runOn b := by
  rw [runOn_updateEvent_eq, he]
  dsimp only
  rw [hu]

theorem runOn_updateEvent_of_none {b : Backend} {rk : String} (he : b.eventAt rk = .ok none)
    (change : Fields) : (Store.updateEvent rk change).runOn b = (.error .notFound, b) := by
  rw [runOn_updateEvent_eq, he]

theorem eventAt_appendLog (b : Backend) (entry : LogEntry) (rk : String) :
    ((Store.appendLog entry).runOn b).2.eventAt rk = b.eventAt rk := by
  cases b with
  | memory s =>
    show (Backend.memory ((Action.become fun s => s.appendLog entry).runOn s).2).eventAt rk = _
    rw [Action.runOn_become, MemoryStore.appendLog]
    by_cases hdup : (s.log.any fun l => l.id = entry.id) = true
    · rw [if_pos hdup]
    · rw [if_neg hdup]
      rfl
  | tables s =>
    show (Backend.tables ((Action.become fun s => s.appendLog entry).runOn s).2).eventAt rk = _
    rw [Action.runOn_become, TableStore.appendLog]
    by_cases hdup : (s.log.any fun l => l.id = entry.id) = true
    · rw [if_pos hdup]
    · rw [if_neg hdup]
      rfl

/-! ## 3. Where actions lead -/

section Combinators

variable {ε δ α β : Type} {m : Medium} {w : World} {x : Action Backend ε α}

/-- From a store that shows `w` the action succeeds, and its value and the world that the store shows
then satisfy `P`. The store may be any that shows `w`, so the law says what the action does as far as
look-ups can tell. -/
def Succeeds (m : Medium) (x : Action Backend ε α) (w : World) (P : α → World → Prop) : Prop :=
  ∀ b : Backend, b.Reflects m w →
    ∃ a b' w', x.runOn b = (.ok a, b') ∧ b'.Reflects m w' ∧ P a w'

/-- From a store that shows `w` the action is refused and the store shows `w` still, or it succeeds as
above. -/
def Tries (m : Medium) (x : Action Backend ε α) (w : World) (P : α → World → Prop) : Prop :=
  ∀ b : Backend, b.Reflects m w →
    (∃ e b', x.runOn b = (.error e, b') ∧ b'.Reflects m w) ∨
      ∃ a b' w', x.runOn b = (.ok a, b') ∧ b'.Reflects m w' ∧ P a w'

theorem Succeeds.tries {P : α → World → Prop} (h : Succeeds m x w P) : Tries m x w P :=
  fun b hb => Or.inr (h b hb)

theorem succeeds_pure {P : α → World → Prop} {a : α} (h : P a w) :
    Succeeds m (pure a : Action Backend ε α) w P :=
  fun b hb => ⟨a, b, w, rfl, hb, h⟩

theorem tries_fail (e : ε) (P : α → World → Prop) :
    Tries m (Action.fail e : Action Backend ε α) w P :=
  fun b hb => Or.inl ⟨e, b, rfl, hb⟩

theorem tries_ofExcept (m : Medium) (w : World) (r : Except ε α) :
    Tries m (Action.ofExcept r : Action Backend ε α) w fun a w' => w' = w ∧ r = .ok a := by
  cases r with
  | error e => exact tries_fail e _
  | ok a => exact (succeeds_pure ⟨rfl, rfl⟩).tries

theorem Succeeds.weaken {P Q : α → World → Prop} (h : Succeeds m x w P)
    (hPQ : ∀ a w', P a w' → Q a w') : Succeeds m x w Q := by
  intro b hb
  obtain ⟨a, b', w', hrun, hb', hP⟩ := h b hb
  exact ⟨a, b', w', hrun, hb', hPQ a w' hP⟩

theorem Tries.weaken {P Q : α → World → Prop} (h : Tries m x w P)
    (hPQ : ∀ a w', P a w' → Q a w') : Tries m x w Q := by
  intro b hb
  rcases h b hb with hfail | ⟨a, b', w', hrun, hb', hP⟩
  · exact Or.inl hfail
  · exact Or.inr ⟨a, b', w', hrun, hb', hPQ a w' hP⟩

theorem Succeeds.bind {f : α → Action Backend ε β} {P : α → World → Prop} {Q : β → World → Prop}
    (hx : Succeeds m x w P) (hf : ∀ a w', P a w' → Succeeds m (f a) w' Q) :
    Succeeds m (x >>= f) w Q := by
  intro b hb
  obtain ⟨a, b', w', hrun, hb', hP⟩ := hx b hb
  rw [Action.runOn_bind, hrun]
  exact hf a w' hP b' hb'

/-- After an action that may be refused, what follows must succeed: it has moved the world, and a
refusal now would leave the first half of the command behind. -/
theorem Tries.bind {f : α → Action Backend ε β} {P : α → World → Prop} {Q : β → World → Prop}
    (hx : Tries m x w P) (hf : ∀ a w', P a w' → Succeeds m (f a) w' Q) : Tries m (x >>= f) w Q := by
  intro b hb
  rw [Action.runOn_bind]
  rcases hx b hb with ⟨e, b', hrun, hb'⟩ | ⟨a, b', w', hrun, hb', hP⟩
  · rw [hrun]
    exact Or.inl ⟨e, b', rfl, hb'⟩
  · rw [hrun]
    exact Or.inr (hf a w' hP b' hb')

/-- After an action that only looks, what follows may still be refused. -/
theorem Tries.bind_look {f : α → Action Backend ε β} {P : α → Prop} {Q : β → World → Prop}
    (hx : Tries m x w fun a w' => w' = w ∧ P a) (hf : ∀ a, P a → Tries m (f a) w Q) :
    Tries m (x >>= f) w Q := by
  intro b hb
  rw [Action.runOn_bind]
  rcases hx b hb with ⟨e, b', hrun, hb'⟩ | ⟨a, b', w', hrun, hb', rfl, hP⟩
  · rw [hrun]
    exact Or.inl ⟨e, b', rfl, hb'⟩
  · rw [hrun]
    exact hf a hP b' hb'

theorem Succeeds.rename {P : α → World → Prop} (h : Succeeds m x w P) (f : ε → δ) :
    Succeeds m (x.rename f) w P := by
  intro b hb
  obtain ⟨a, b', w', hrun, hb', hP⟩ := h b hb
  rw [Action.runOn_rename, hrun]
  exact ⟨a, b', w', rfl, hb', hP⟩

theorem Tries.rename {P : α → World → Prop} (h : Tries m x w P) (f : ε → δ) :
    Tries m (x.rename f) w P := by
  intro b hb
  rw [Action.runOn_rename]
  rcases h b hb with ⟨e, b', hrun, hb'⟩ | ⟨a, b', w', hrun, hb', hP⟩
  · rw [hrun]
    exact Or.inl ⟨f e, b', rfl, hb'⟩
  · rw [hrun]
    exact Or.inr ⟨a, b', w', rfl, hb', hP⟩

/-- A store that shows `w` keeps the live events of `w`. -/
theorem Tries.of_kept {P : α → World → Prop}
    (h : (∀ rk e, w.live rk = some e → m.Keeps e) → Tries m x w P) : Tries m x w P :=
  fun b hb => h hb.kept b hb

theorem Succeeds.of_kept {P : α → World → Prop}
    (h : (∀ rk e, w.live rk = some e → m.Keeps e) → Succeeds m x w P) : Succeeds m x w P :=
  fun b hb => h hb.kept b hb

end Combinators

/-! ## 4. The laws of a store -/

section Laws

variable {m : Medium} {w : World}

theorem succeeds_getStatus (m : Medium) (w : World) (id : String) :
    Succeeds m (Store.getStatus id) w fun o w' => w' = w ∧ o = w.record id := by
  intro b hb
  rw [runOn_getStatus, hb.records id]
  exact ⟨_, b, w, rfl, hb, rfl, rfl⟩

theorem succeeds_getEvent (m : Medium) (w : World) (rk : String) :
    Succeeds m (Store.getEvent rk) w fun o w' => w' = w ∧ o = w.live rk := by
  intro b hb
  rw [runOn_getEvent, hb.events rk]
  exact ⟨_, b, w, rfl, hb, rfl, rfl⟩

theorem succeeds_putStatus (m : Medium) (w : World) (id : String) (r : StatusRecord) :
    Succeeds m (Store.putStatus id r) w fun _ w' => w' = w.setRecord id r := by
  intro b hb
  have hrun : (Store.putStatus id r).runOn b = (.ok (), ((Store.putStatus id r).runOn b).2) :=
    Prod.ext (runOn_putStatus b id r) rfl
  refine ⟨(), _, w.setRecord id r, hrun, ⟨?_, ?_, ?_, hb.kept⟩, rfl⟩
  · rw [medium_putStatus]
    exact hb.medium
  · intro j
    rw [recordAt_putStatus, World.record_setRecord, hb.records j]
    split <;> rfl
  · intro rk
    rw [eventAt_putStatus]
    exact hb.events rk

/-- **Putting an event**: it is found as it comes back, with other extra fields perhaps. The store has
to keep it (`hk`), or it would not be found. -/
theorem succeeds_putEvent {e : Event} (hk : m.Keeps e) (w : World) (rk : String) :
    Succeeds m (Store.putEvent rk e) w
      fun _ w' => ∃ x, w' = w.setLive rk { e with extra := x } := by
  intro b hb
  obtain ⟨x, hgives, hkeeps⟩ := hk.gives
  have hsame := sameStatuses_putEvent b rk e
  have hrun : (Store.putEvent rk e).runOn b = (.ok (), ((Store.putEvent rk e).runOn b).2) :=
    Prod.ext (runOn_putEvent b rk e) rfl
  rw [← hb.medium] at hgives
  refine ⟨(), _, w.setLive rk { e with extra := x }, hrun, ⟨?_, ?_, ?_, ?_⟩, x, rfl⟩
  · exact hsame.medium.trans hb.medium
  · intro id
    exact (hsame.recordAt id).trans (hb.records id)
  · intro j
    rw [eventAt_putEvent hgives, World.live_setLive, hb.events j]
    split <;> rfl
  · intro j d hd
    rw [World.live_setLive] at hd
    split at hd
    · cases hd
      exact hkeeps
    · exact hb.kept j d hd

/-- **Updating an event** that is there (`he`), by a change that fits (`hu`). The updated event has to
be kept as a new one is (`hk`). -/
theorem succeeds_updateEvent {rk : String} {change : Fields} {e e' : Event}
    (he : w.live rk = some e) (hu : e.update? change = some e') (hk : m.Keeps e') :
    Succeeds m (Store.updateEvent rk change) w
      fun _ w' => ∃ x, w' = w.setLive rk { e' with extra := x } := by
  intro b hb
  rw [runOn_updateEvent ((hb.events rk).trans (congrArg _ he)) hu]
  exact succeeds_putEvent hk w rk b hb

theorem tries_updateEvent_of_none {rk : String} (he : w.live rk = none) (change : Fields)
    (P : Unit → World → Prop) : Tries m (Store.updateEvent rk change) w P := by
  intro b hb
  rw [runOn_updateEvent_of_none ((hb.events rk).trans (congrArg _ he))]
  exact Or.inl ⟨_, b, rfl, hb⟩

/-- The log is not part of the world, so an attempt to add to it leaves the world as it is. -/
theorem succeeds_appendLog (m : Medium) (w : World) (entry : LogEntry) :
    Succeeds m ((Store.appendLog entry).attempt :
      Action Backend StoreError (Except StoreError Unit)) w fun _ w' => w' = w := by
  intro b hb
  have hsame := sameStatuses_appendLog b entry
  refine ⟨_, _, w, rfl, ⟨hsame.medium.trans hb.medium, ?_, ?_, hb.kept⟩, rfl⟩
  · intro id
    exact (hsame.recordAt id).trans (hb.records id)
  · intro rk
    exact (eventAt_appendLog b entry rk).trans (hb.events rk)

end Laws

end Backend
end AlertStatus
