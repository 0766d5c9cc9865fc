import AlertStatus.Proofs.Store.Faults
import AlertStatus.Proofs.Store.Linked
import AlertStatus.Proofs.Store.Log

/-!
# The tables of a store in memory

`TableStore.of` writes down what a store in memory holds, row by row. Two stores are twins when one is
written down from the other and the events in it are read back as they are. Every operation matches on
twins: records and events are read from the rows that were written for them, the columns of the expiry
query say what the records say, and the order of rows is the order of what they were written for.

An update is where the events of a store may change in ways that nobody foresees. So its law asks about
the one event that it makes (`matches_updateEvent`), not about the change.

The kinds of store and the plan of faults stand above the operations, and what matches below matches
above (`Linked.Whole.either`, `Linked.Whole.guarded`).
-/

set_option autoImplicit false

namespace AlertStatus

/-! ## 1. Events that are read back as they are -/

namespace Json

mutual

/-- The members of each object stand in order of their names, and no number is a binary one. -/
def plain : Json → Bool
  | .null | .bool _ | .str _ => true
  | .num n =>
    match n with
    | .int _ => true
    | .float _ => false
  | .arr items => plainItems items
  | .obj members => (members.Pairwise fun a b => a.1 < b.1) && plainMembers members

def plainItems : List Json → Bool
  | [] => true
  | v :: vs => plain v && plainItems vs

def plainMembers : List (String × Json) → Bool
  | [] => true
  | (_, v) :: vs => plain v && plainMembers vs

end

mutual

theorem sound_of_plain : ∀ v : Json, v.plain = true → v.Sound
  | .null, _ | .bool _, _ | .str _, _ => trivial
  | .num n, h => by
    cases n with
    | int i => trivial
    | float x => cases h
  | .arr items, h => sound_of_plainItems items h
  | .obj members, h => by
    rw [plain, Bool.and_eq_true, decide_eq_true_eq] at h
    exact ⟨h.1, sound_of_plainMembers members h.2⟩

theorem sound_of_plainItems : ∀ vs : List Json, plainItems vs = true → SoundItems vs
  | [], _ => trivial
  | v :: vs, h => by
    rw [plainItems, Bool.and_eq_true] at h
    exact ⟨sound_of_plain v h.1, sound_of_plainItems vs h.2⟩

theorem sound_of_plainMembers :
    ∀ ms : List (String × Json), plainMembers ms = true → SoundMembers ms
  | [], _ => trivial
  | (_, v) :: ms, h => by
    rw [plainMembers, Bool.and_eq_true] at h
    exact ⟨sound_of_plain v h.1, sound_of_plainMembers ms h.2⟩

end

mutual

/-- Only binary numbers are rounded when a document is read back. -/
theorem reread_of_plain : ∀ v : Json, v.plain = true → v.reread = v
  | .null, _ | .bool _, _ | .str _, _ => rfl
  | .num n, h => by
    cases n with
    | int i => exact congrArg Json.num (Number.reread_int i)
    | float x => cases h
  | .arr items, h => congrArg Json.arr (reread_of_plainItems items h)
  | .obj members, h => by
    rw [plain, Bool.and_eq_true] at h
    exact congrArg Json.obj (reread_of_plainMembers members h.2)

theorem reread_of_plainItems : ∀ vs : List Json, plainItems vs = true → rereadItems vs = vs
  | [], _ => rfl
  | v :: vs, h => by
    rw [plainItems, Bool.and_eq_true] at h
    rw [rereadItems, reread_of_plain v h.1, reread_of_plainItems vs h.2]

theorem reread_of_plainMembers :
    ∀ ms : List (String × Json), plainMembers ms = true → rereadMembers ms = ms
  | [], _ => rfl
  | (k, v) :: ms, h => by
    rw [plainMembers, Bool.and_eq_true] at h
    rw [rereadMembers, reread_of_plain v h.1, reread_of_plainMembers ms h.2]

end

theorem stable_of_plain {v : Json} (h : v.plain = true) : v.Stable :=
  ⟨sound_of_plain v h, reread_of_plain v h⟩

/-- The document is read back as it is, also from inside an event. -/
def Lasting (v : Json) : Prop := v.Stable ∧ v.depth < depthLimit

end Json

namespace Event

variable {e : Event}

theorem storable_of_lasting (h : e.Carries Json.Lasting) : e.Storable :=
  fun k v hv => ⟨(h k v hv).1.sound, (h k v hv).2⟩

/-- **An event with lasting extra fields is read back as it is.** Without the condition (`h`) a binary
number may come back as the next one, and a field that nests too deep not at all. -/
theorem readText_of_lasting (h : e.Carries Json.Lasting) : readText Event e.toJson.text = .ok e := by
  have hextra : ExtraFields.of (e.toFields.map Json.reread) = e.extra := by
    refine ExtraFields.ext_get? fun k => ?_
    rw [ExtraFields.get?_of]
    split
    · rename_i hk
      exact (ExtraFields.get?_of_known e.extra hk).symm
    · rename_i hk
      rw [get?_reread_of_unknown e hk]
      cases hv : e.extra.fields.get? k with
      | none => rfl
      | some v => exact congrArg some (h k v hv).1.same
  rw [readText_toJson (storable_of_lasting h), reread, hextra]

theorem decode_of_lasting (h : e.Carries Json.Lasting) :
    (TableStore.decode e.toJson.text : Except StoreError Event) = .ok e := by
  rw [TableStore.decode, readText_of_lasting h]

end Event

/-! ## 2. Twins -/

open AlertStatus.Action

/-- The tables with what a store in memory holds. -/
def TableStore.of (s : MemoryStore) : TableStore where
  statuses := s.statuses.map StatusRow.of
  events := s.events.map fun e => e.toJson.text
  log := s.log.map LogRow.of

/-- The tables hold what the store in memory holds, and all its events are read back as they are. -/
structure Twins (s : MemoryStore) (t : TableStore) : Prop where
  tables : t = .of s
  live : ∀ rk e, s.events.get? rk = some e → e.Carries Json.Lasting
  logged : ∀ entry ∈ s.log, entry.event.Carries Json.Lasting

namespace Twins

theorem empty : Twins .empty .empty := by
  refine ⟨rfl, ?_, ?_⟩
  · intro rk e h
    cases h
  · intro entry h
    cases h

variable {s : MemoryStore} {t : TableStore}

/-- One more live event. -/
theorem insert (h : Twins s t) (rk : String) {e : Event} (he : e.Carries Json.Lasting) :
    Twins { s with events := s.events.insert rk e }
      { t with events := t.events.insert rk e.toJson.text } := by
  refine ⟨?_, ?_, h.logged⟩
  · rw [h.tables, TableStore.of, TableStore.of, SortedMap.map_insert]
  · intro j d hd
    rw [SortedMap.get?_insert] at hd
    split at hd
    · cases hd
      exact he
    · exact h.live j d hd

theorem matches_getStatus (id : String) :
    Matches Twins (Store.getStatus id) (Store.getStatus id) fun _ => True := by
  intro s t h
  refine ⟨?_, h, fun _ _ => trivial⟩
  show Except.ok (s.statuses.get? id) =
    TableStore.decodeOption ((t.statuses.get? id).map StatusRow.doc)
  rw [h.tables, TableStore.of, SortedMap.get?_map]
  cases s.statuses.get? id with
  | none => rfl
  | some r =>
    show _ = (TableStore.decode (StatusRow.of r).doc).map some
    rw [TableStore.decode_of]
    rfl

theorem matches_putStatus (id : String) (r : StatusRecord) :
    Matches Twins (Store.putStatus id r) (Store.putStatus id r) fun _ => True := by
  intro s t h
  refine ⟨rfl, ⟨?_, h.live, h.logged⟩, fun _ _ => trivial⟩
  show { t with statuses := t.statuses.insert id (.of r) } =
    TableStore.of { s with statuses := s.statuses.insert id r }
  rw [h.tables, TableStore.of, TableStore.of, SortedMap.map_insert]

theorem matches_expiredStatuses (stealthyBefore flappingBefore : Instant) :
    Matches Twins (Store.expiredStatuses stealthyBefore flappingBefore)
      (Store.expiredStatuses stealthyBefore flappingBefore) fun _ => True := by
  intro s t h
  refine ⟨?_, h, fun _ _ => trivial⟩
  show Except.ok (s.expired stealthyBefore flappingBefore) = t.expired stealthyBefore flappingBefore
  rw [h.tables]
  exact (Backend.mapM_decode_rows s.statuses.entries stealthyBefore flappingBefore).symm

theorem matches_getEvent (rk : String) :
    Matches Twins (Store.getEvent rk) (Store.getEvent rk)
      fun o => ∀ e, o = some e → e.Carries Json.Lasting := by
  intro s t h
  refine ⟨?_, h, ?_⟩
  · show Except.ok (s.events.get? rk) = TableStore.decodeOption (t.events.get? rk)
    rw [h.tables, TableStore.of, SortedMap.get?_map]
    cases he : s.events.get? rk with
    | none => rfl
    | some e =>
      show _ = (TableStore.decode e.toJson.text).map some
      rw [Event.decode_of_lasting (h.live rk e he)]
      rfl
  · rintro o ho e rfl
    exact h.live rk e (Except.ok.inj ho)

theorem matches_putEvent (rk : String) {e : Event} (he : e.Carries Json.Lasting) :
    Matches Twins (Store.putEvent rk e) (Store.putEvent rk e) fun _ => True :=
  fun _ _ h => ⟨rfl, h.insert rk he, fun _ _ => trivial⟩

/-- **An update** that makes an event with lasting fields, if it makes one. This is asked of the event
that is made (`hc`), as a change may bring a value for an extra field that is not read back as it
is. -/
theorem updateEvent (h : Twins s t) (rk : String) (change : Fields)
    (hc : ∀ e d, s.events.get? rk = some e → e.update? change = some d → d.Carries Json.Lasting) :
    ((Store.updateEvent rk change).runOn s).1 = ((Store.updateEvent rk change).runOn t).1 ∧
      Twins ((Store.updateEvent rk change).runOn s).2 ((Store.updateEvent rk change).runOn t).2 := by
  show ((become fun s : MemoryStore => s.updateEvent rk change).runOn s).1 =
      ((become fun t : TableStore => t.updateEvent rk change).runOn t).1 ∧
    Twins ((become fun s : MemoryStore => s.updateEvent rk change).runOn s).2
      ((become fun t : TableStore => t.updateEvent rk change).runOn t).2
  have hrow : t.events.get? rk = (s.events.get? rk).map fun e => e.toJson.text := by
    rw [h.tables, TableStore.of, SortedMap.get?_map]
  rw [runOn_become, runOn_become, MemoryStore.updateEvent, TableStore.updateEvent, hrow]
  cases he : s.events.get? rk with
  | none => exact ⟨rfl, h⟩
  | some e =>
    dsimp only [Option.map_some]
    rw [Event.decode_of_lasting (h.live rk e he)]
    dsimp only
    cases hd : e.update? change with
    | none => exact ⟨rfl, h⟩
    | some d => exact ⟨rfl, h.insert rk (hc e d he hd)⟩

theorem matches_appendLog (entry : LogEntry) (he : entry.event.Carries Json.Lasting) :
    Matches Twins (Store.appendLog entry) (Store.appendLog entry) fun _ => True := by
  intro s t h
  show ((become fun s : MemoryStore => s.appendLog entry).runOn s).1 =
      ((become fun t : TableStore => t.appendLog entry).runOn t).1 ∧
    Twins ((become fun s : MemoryStore => s.appendLog entry).runOn s).2
      ((become fun t : TableStore => t.appendLog entry).runOn t).2 ∧ _
  have hids : (t.log.any fun l => l.id = entry.id) = s.log.any fun l => l.id = entry.id := by
    rw [h.tables, TableStore.of, List.any_map]
    rfl
  rw [runOn_become, runOn_become, MemoryStore.appendLog, TableStore.appendLog, hids]
  by_cases hdup : (s.log.any fun l => l.id = entry.id) = true
  · rw [if_pos hdup, if_pos hdup]
    exact ⟨rfl, h, fun _ _ => trivial⟩
  · rw [if_neg hdup, if_neg hdup]
    refine ⟨rfl, ⟨?_, h.live, ?_⟩, fun _ _ => trivial⟩
    · show { t with log := t.log ++ [LogRow.of entry] } = _
      rw [h.tables, TableStore.of, TableStore.of, List.map_append, List.map_singleton]
    · exact List.forall_mem_append.mpr ⟨h.logged, List.forall_mem_singleton.mpr he⟩

theorem matches_getLog (rk : String) :
    Matches Twins (Store.getLog rk) (Store.getLog rk) fun _ => True := by
  intro s t h
  refine ⟨?_, h, fun _ _ => trivial⟩
  let found := orderByTime LogEntry.timestamp (s.log.filter fun l => l.routingKey = rk)
  let read (row : LogRow) : Except StoreError LogEntry :=
    (TableStore.decode row.doc).map fun e => ⟨row.id, rk, row.timestamp, e⟩
  have hrows : orderByTime LogRow.timestamp (t.log.filter fun row => row.routingKey = rk) =
      found.map LogRow.of := by
    rw [h.tables, TableStore.of, List.filter_map]
    exact orderByTime_map (fun _ => rfl) _
  have hread : ∀ entry ∈ found, read (.of entry) = .ok entry := by
    intro entry hentry
    obtain ⟨hmem, hkey⟩ := List.mem_filter.mp ((perm_orderByTime LogEntry.timestamp _).subset hentry)
    show (TableStore.decode entry.event.toJson.text).map _ = _
    rw [Event.decode_of_lasting (h.logged entry hmem), ← of_decide_eq_true hkey]
    rfl
  show Except.ok found = (orderByTime _ _).mapM read
  rw [hrows, eq_comm, mapM_eq_ok_iff, List.forall₂_map_left_iff]
  exact List.forall₂_same.mpr hread

/-- **Every operation matches on twins.** -/
theorem whole : Linked.Whole Twins Json.Lasting where
  getStatus id _ := matches_getStatus id
  putStatus id r _ := matches_putStatus id r
  getEvent rk _ := matches_getEvent rk
  putEvent rk _ _ he := matches_putEvent rk he
  updateEvent rk change _ hc := by
    intro s t h
    obtain ⟨heq, hR⟩ := h.updateEvent rk change fun e d he hd => (h.live rk e he).update hc hd
    exact ⟨heq, hR, fun _ _ => trivial⟩
  appendLog rk time e _ he := matches_appendLog (.of rk time e) he
  expiredStatuses := matches_expiredStatuses
  appendEntry := matches_appendLog
  getLog := matches_getLog

end Twins

/-! ## 3. Behind one interface -/

/-- A store in memory and its twin. -/
def Backend.Twins (b d : Backend) : Prop :=
  ∃ s t, b = .memory s ∧ d = .tables t ∧ AlertStatus.Twins s t

section Either

variable {ε α : Type} {Q : α → Prop} {x : Action MemoryStore ε α} {y : Action TableStore ε α}

theorem matches_either (h : Matches Twins x y Q) (x' : Action MemoryStore ε α)
    (y' : Action TableStore ε α) :
    Matches Backend.Twins (Backend.either x y') (Backend.either x' y) Q := by
  rintro _ _ ⟨s, t, rfl, rfl, hst⟩
  obtain ⟨heq, hR, hQ⟩ := h s t hst
  exact ⟨heq, ⟨_, _, rfl, rfl, hR⟩, hQ⟩

end Either

theorem Backend.Twins.whole : Linked.Whole Backend.Twins Json.Lasting where
  getStatus id hid := matches_either (AlertStatus.Twins.whole.getStatus id hid) _ _
  putStatus id r hid := matches_either (AlertStatus.Twins.whole.putStatus id r hid) _ _
  getEvent rk hrk := matches_either (AlertStatus.Twins.whole.getEvent rk hrk) _ _
  putEvent rk e hrk he := matches_either (AlertStatus.Twins.whole.putEvent rk e hrk he) _ _
  updateEvent rk change hrk hc :=
    matches_either (AlertStatus.Twins.whole.updateEvent rk change hrk hc) _ _
  appendLog rk t e hrk he := matches_either (AlertStatus.Twins.whole.appendLog rk t e hrk he) _ _
  expiredStatuses a b := matches_either (AlertStatus.Twins.whole.expiredStatuses a b) _ _
  appendEntry entry he := matches_either (AlertStatus.Twins.whole.appendEntry entry he) _ _
  getLog rk := matches_either (AlertStatus.Twins.whole.getLog rk) _ _

/-! ## 4. Behind a plan of faults -/

namespace FaultyStore

variable {σ τ α : Type} {R : σ → τ → Prop}

/-- One plan of faults in front of related stores. -/
def Alike (R : σ → τ → Prop) (s : FaultyStore σ) (t : FaultyStore τ) : Prop :=
  s.faults = t.faults ∧ R s.store t.store

/-- A fault strikes both stores or none. -/
theorem guarded_alike {x : Action σ StoreError α} {y : Action τ StoreError α} {Q : α → Prop}
    {s : FaultyStore σ} {t : FaultyStore τ} (hst : Alike R s t) (method : StoreMethod) (key : String)
    (h : (x.runOn s.store).1 = (y.runOn t.store).1 ∧ R (x.runOn s.store).2 (y.runOn t.store).2 ∧
      ∀ a, (x.runOn s.store).1 = .ok a → Q a) :
    ((guarded method key x).runOn s).1 = ((guarded method key y).runOn t).1 ∧
      Alike R ((guarded method key x).runOn s).2 ((guarded method key y).runOn t).2 ∧
      ∀ a, ((guarded method key x).runOn s).1 = .ok a → Q a := by
  obtain ⟨hfaults, hR⟩ := hst
  cases hstrike : Fault.strike method key s.faults with
  | some struck =>
    rw [guarded_of_strike hstrike, guarded_of_strike (hfaults ▸ hstrike)]
    exact ⟨rfl, ⟨rfl, hR⟩, nofun⟩
  | none =>
    rw [guarded_of_pass hstrike, guarded_of_pass (hfaults ▸ hstrike)]
    exact ⟨h.1, ⟨hfaults, h.2.1⟩, h.2.2⟩

theorem matches_guarded {x : Action σ StoreError α} {y : Action τ StoreError α} {Q : α → Prop}
    (h : Matches R x y Q) (method : StoreMethod) (key : String) :
    Matches (Alike R) (guarded method key x) (guarded method key y) Q :=
  fun s t hst => guarded_alike hst method key (h s.store t.store hst.2)

end FaultyStore

/-- **What matches without faults matches behind one plan of them.** A fault strikes by the method and
the key of an operation, and these are the same on both sides; what is struck leaves both stores. -/
theorem Linked.Whole.guarded {σ τ : Type} [Store σ] [Store τ] {R : σ → τ → Prop} {fine : Json → Prop}
    (h : Linked.Whole R fine) : Linked.Whole (FaultyStore.Alike R) fine where
  getStatus id hid := FaultyStore.matches_guarded (h.getStatus id hid) _ _
  putStatus id r hid := FaultyStore.matches_guarded (h.putStatus id r hid) _ _
  getEvent rk hrk := FaultyStore.matches_guarded (h.getEvent rk hrk) _ _
  putEvent rk e hrk he := FaultyStore.matches_guarded (h.putEvent rk e hrk he) _ _
  updateEvent rk change hrk hc := FaultyStore.matches_guarded (h.updateEvent rk change hrk hc) _ _
  appendLog rk t e hrk he := FaultyStore.matches_guarded (h.appendLog rk t e hrk he) _ _
  expiredStatuses a b := FaultyStore.matches_guarded (h.expiredStatuses a b) _ _
  appendEntry entry he := FaultyStore.matches_guarded (h.appendEntry entry he) _ _
  getLog rk := FaultyStore.matches_guarded (h.getLog rk) _ _

end AlertStatus
