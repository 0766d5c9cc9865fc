import AlertStatus.Proofs.Data.Lists
import AlertStatus.Proofs.Json.Numeral
import AlertStatus.Proofs.Store.World

/-!
# The log of a store

The log is not part of the world that a store shows, since no decision is taken by it. Here it is looked
at by itself: `Backend.Logs` says which entries were added and in which order, and an entry is refused
exactly when its id was there (`logs_appendLog`). The ids of different routing keys never meet, whatever
dots the keys have, because a time has none (`LogEntry.of_id_inj`).

What is read of the log is in order of time, and each entry comes back as its medium gives it
(`logAt_of_logs`).
-/

set_option autoImplicit false

namespace AlertStatus

/-! ## 1. Ids -/

theorem isDigit_of_mem_digits {n : Nat} {c : Char} (h : c ∈ Number.digits n) : c.isDigit = true :=
  Nat.isDigit_of_mem_toDigits (by decide) (by decide) h

/-- An id ends with a number as documents have it. -/
theorem toList_repr (i : Int) : i.repr.toList = Number.writeInt i := by
  rw [Int.repr_eq_if, Number.writeInt]
  by_cases h : 0 ≤ i
  · have habs : i.toNat = i.natAbs := by omega
    rw [if_pos h, if_neg (Int.not_lt.mpr h), habs, Nat.repr_eq_ofList_toDigits, String.toList_ofList]
    rfl
  · have habs : (-i).toNat = i.natAbs := by omega
    rw [if_neg h, if_pos (Int.not_le.mp h), habs, Nat.repr_eq_ofList_toDigits]
    simp [Number.digits]

theorem dot_not_mem_writeInt (i : Int) : '.' ∉ Number.writeInt i := by
  have hdigits (n : Nat) : '.' ∉ Number.digits n :=
    fun h => absurd (isDigit_of_mem_digits h) (by decide)
  unfold Number.writeInt
  split
  · rw [List.mem_cons]
    rintro (h | h)
    · exact absurd h (by decide)
    · exact hdigits _ h
  · exact hdigits _

theorem digits_injective {n n' : Nat} (h : Number.digits n = Number.digits n') : n = n' := by
  have hvalues : digitValues n = digitValues n' := congrArg (List.filterMap decimalDigit?) h
  rw [← (spells_digitValues n).value, hvalues, (spells_digitValues n').value]

theorem writeInt_injective {i i' : Int} (h : Number.writeInt i = Number.writeInt i') : i = i' := by
  -- A sign is no digit, so two texts that are equal have both a sign or none.
  have hsign (n n' : Nat) : '-' :: Number.digits n ≠ Number.digits n' := fun heq =>
    absurd (isDigit_of_mem_digits (heq ▸ List.mem_cons_self)) (by decide)
  unfold Number.writeInt at h
  split at h <;> split at h
  · have habs := digits_injective (List.cons.inj h).2
    omega
  · exact absurd h (hsign _ _)
  · exact absurd h.symm (hsign _ _)
  · have habs := digits_injective h
    omega

/-- Reading an id backwards, what stands before the first dot is its time. -/
theorem takeWhile_time (rk : List Char) (i : Int) :
    ((Number.writeInt i).reverse ++ '.' :: rk).takeWhile (fun c => c ≠ '.') =
      (Number.writeInt i).reverse := by
  rw [List.takeWhile_append_of_pos, List.takeWhile_cons_of_neg, List.append_nil]
  · simp
  · intro c hc
    rw [decide_eq_true_iff]
    rintro rfl
    exact dot_not_mem_writeInt i (List.mem_reverse.mp hc)

/-- **The id of an entry says its routing key and its time.** The key may have dots in it and look like
the start of another one. But a time has none, so the last dot of an id is where the time begins. -/
theorem LogEntry.of_id_inj {rk rk' : String} {t t' : Instant} {e e' : Event}
    (h : (LogEntry.of rk t e).id = (LogEntry.of rk' t' e').id) : rk = rk' ∧ t = t' := by
  have hchars : (Number.writeInt t.val).reverse ++ '.' :: rk.toList.reverse =
      (Number.writeInt t'.val).reverse ++ '.' :: rk'.toList.reverse := by
    have hlist := congrArg (fun s => s.toList.reverse) h
    simpa [LogEntry.of, toList_repr] using hlist
  have htime : (Number.writeInt t.val).reverse = (Number.writeInt t'.val).reverse := by
    rw [← takeWhile_time rk.toList.reverse, hchars, takeWhile_time]
  constructor
  · rw [htime] at hchars
    have hkey := (List.cons.inj (List.append_cancel_left hchars)).2
    exact String.toList_inj.mp (List.reverse_inj.mp hkey)
  · exact Bounded.ext (writeInt_injective (List.reverse_inj.mp htime))

/-! ## 2. The entries of a log -/

def LogRow.of (entry : LogEntry) : LogRow :=
  ⟨entry.id, entry.routingKey, entry.timestamp, entry.event.toJson.text⟩

/-- The entry `d` is what comes back of `entry`. -/
def Medium.Returns (m : Medium) (entry d : LogEntry) : Prop :=
  d = { entry with event := d.event } ∧ m.Gives entry.event d.event

namespace Backend

/-- The entries that were added to the log, in this order: as they are in memory, as the rows that were
written for them in tables. It says what was written, and not that the rows can be read back. -/
def Logs (b : Backend) (l : List LogEntry) : Prop :=
  match b with
  | .memory s => s.log = l
  | .tables s => s.log = l.map LogRow.of

variable {b : Backend} {l : List LogEntry}

def logAt (b : Backend) (rk : String) : Except StoreError (List LogEntry) :=
  ((Store.getLog rk).runOn b).1

theorem logs_putEvent (h : b.Logs l) (rk : String) (e : Event) :
    ((Store.putEvent rk e).runOn b).2.Logs l := by
  cases b <;> exact h

/-- **An entry is added unless its id was there.** For this it is enough to know what was written
(`h`), readable or not: the ids are compared, and no event is read. -/
theorem logs_appendLog (h : b.Logs l) (entry : LogEntry) :
    ((Store.appendLog entry).runOn b).2.Logs
      (if entry.id ∈ l.map LogEntry.id then l else l ++ [entry]) := by
  cases b with
  | memory s =>
    have hl : s.log = l := h
    have hdup : (s.log.any fun d => d.id = entry.id) = true ↔ entry.id ∈ l.map LogEntry.id := by
      simp [hl]
    show (Backend.memory ((Action.become fun s => s.appendLog entry).runOn s).2).Logs _
    rw [Action.runOn_become, MemoryStore.appendLog]
    by_cases hid : entry.id ∈ l.map LogEntry.id
    · rw [if_pos hid, if_pos (hdup.mpr hid)]
      exact h
    · rw [if_neg hid, if_neg (mt hdup.mp hid)]
      exact congrArg (· ++ [entry]) hl
  | tables s =>
    have hl : s.log = l.map LogRow.of := h
    have hdup : (s.log.any fun d => d.id = entry.id) = true ↔ entry.id ∈ l.map LogEntry.id := by
      rw [hl, List.any_map, List.any_eq_true, List.mem_map]
      simp only [Function.comp_apply, decide_eq_true_eq]
      rfl
    show (Backend.tables ((Action.become fun s => s.appendLog entry).runOn s).2).Logs _
    rw [Action.runOn_become, TableStore.appendLog]
    by_cases hid : entry.id ∈ l.map LogEntry.id
    · rw [if_pos hid, if_pos (hdup.mpr hid)]
      exact h
    · rw [if_neg hid, if_neg (mt hdup.mp hid)]
      show s.log ++ _ = (l ++ [entry]).map LogRow.of
      rw [List.map_append, hl]
      rfl

/-- **What is read of the log**: the entries of the routing key in order of time, each as it comes
back. The events of all entries have to be kept (`hk`), since one row that cannot be read fails the
look-up. -/
theorem logAt_of_logs (h : b.Logs l) (hk : ∀ entry ∈ l, b.medium.Keeps entry.event) (rk : String) :
    ∃ log, b.logAt rk = .ok log ∧
      List.Forall₂ b.medium.Returns
        (orderByTime LogEntry.timestamp (l.filter fun d => d.routingKey = rk)) log := by
  cases b with
  | memory s =>
    have hl : s.log = l := h
    refine ⟨s.logOf rk, rfl, ?_⟩
    rw [MemoryStore.logOf, hl]
    exact List.forall₂_same.mpr fun d _ => ⟨rfl, rfl⟩
  | tables s =>
    have hl : s.log = l.map LogRow.of := h
    let found := orderByTime LogEntry.timestamp (l.filter fun d => d.routingKey = rk)
    have hrows : orderByTime LogRow.timestamp (s.log.filter fun row => row.routingKey = rk) =
        found.map LogRow.of := by
      rw [hl, List.filter_map]
      exact orderByTime_map (fun _ => rfl) _
    have hfound : ∀ d ∈ found, d ∈ l ∧ d.routingKey = rk := by
      intro d hd
      have := (perm_orderByTime LogEntry.timestamp _).subset hd
      simpa using this
    -- Each row of the routing key is read back, one by one.
    let read : LogRow → Except StoreError LogEntry := fun row =>
      (TableStore.decode row.doc).map fun e => ⟨row.id, rk, row.timestamp, e⟩
    have hread : ∀ d ∈ found, ∃ d', read (.of d) = .ok d' ∧ Medium.texts.Returns d d' := by
      intro d hd
      obtain ⟨hmem, rfl⟩ := hfound d hd
      obtain ⟨x, hgives, -⟩ := Medium.Keeps.gives (hk d hmem)
      have hdecode : (TableStore.decode d.event.toJson.text : Except StoreError Event) =
          .ok { d.event with extra := x } := by
        rw [TableStore.decode, show readText Event d.event.toJson.text = _ from hgives]
      refine ⟨{ d with event := { d.event with extra := x } }, ?_, rfl, hgives⟩
      show (TableStore.decode d.event.toJson.text).map _ = _
      rw [hdecode]
      rfl
    obtain ⟨log, hlog⟩ := exists_forall₂ hread
    refine ⟨log, ?_, hlog.imp fun _ _ h => h.2⟩
    show (orderByTime _ _).mapM read = .ok log
    rw [hrows, mapM_eq_ok_iff, List.forall₂_map_left_iff]
    exact hlog.imp fun _ _ h => h.1

end Backend
end AlertStatus
