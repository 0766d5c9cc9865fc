import AlertStatus.Proofs.Data.Refusal
import AlertStatus.Proofs.Engine.Steps
import AlertStatus.Proofs.Store.Region

/-!
# What archiving an event does to a store

An event whose key has a live record is archived in two writes at most: the merged record is put, and a
copy goes to the log unless its id was there. `gives_archived` says exactly which, for a store of either
kind and whatever stands in it. The rest follows from it: which live record is found after it, and which
entries were added.
-/

set_option autoImplicit false

namespace AlertStatus

open AlertStatus.Action

namespace Event

variable (e prior : Event) (now : Instant)

/-! ## 1. The event and its copy -/

/-- The event as it is merged into the live record `prior`. -/
def arriving : Event := (e.identified now).stamped prior (e.timestamp.getD now)

/-- The copy of the event for the log. -/
def copy : LogEntry :=
  Archive.logCopy e.routingKey (e.timestamp.getD now) (e.arriving prior now) prior

@[simp] theorem arriving_state : (e.arriving prior now).state = e.state := stamped_state _ _ _

@[simp] theorem arriving_keepState : (e.arriving prior now).keepState = e.keepState :=
  stamped_keepState _ _ _

@[simp] theorem arriving_status : (e.arriving prior now).status = e.status := stamped_status _ _ _

@[simp] theorem arriving_extra : (e.arriving prior now).extra = e.extra := stamped_extra _ _ _

@[simp] theorem arriving_effectiveStatus :
    (e.arriving prior now).effectiveStatus = e.effectiveStatus := by
  unfold effectiveStatus isAlert
  rw [arriving_status, arriving_state]

theorem arriving_previousState : (e.arriving prior now).previousState =
    if e.state = prior.state then e.previousState else some prior.state := by
  rw [arriving, stamped_eq]
  rfl

/-- An event goes to the log when its state changed, or when it claims itself that it did. -/
theorem logged_arriving : Archive.logged (e.arriving prior now) = true ↔
    e.state ≠ prior.state ∨ ∃ s, e.previousState = some s ∧ s ≠ e.state := by
  rw [Archive.logged, arriving_previousState, arriving_state, Option.any_eq_true]
  simp only [decide_eq_true_eq]
  by_cases hs : e.state = prior.state
  · rw [if_pos hs]
    exact ⟨Or.inr, fun h => h.resolve_left fun hne => hne hs⟩
  · rw [if_neg hs]
    exact ⟨fun _ => Or.inl hs, fun _ => ⟨prior.state, rfl, Ne.symm hs⟩⟩

end Event

namespace Backend

variable {b b' : Backend} {rk : String} {now : Instant} {e prior d : Event} {l l' : List LogEntry}

/-! ## 2. Entries under a routing key -/

/-- The entries `l` were added to the log under the routing key, in this order. -/
structure Added (rk : String) (l : List LogEntry) (b b' : Backend) : Prop where
  medium : b'.medium = b.medium
  rows : b'.rowsAt rk = l.foldl (Medium.joined b.medium) (b.rowsAt rk)

theorem added_nil (hm : b'.medium = b.medium) (hr : b'.rowsAt rk = b.rowsAt rk) : Added rk [] b b' :=
  ⟨hm, hr⟩

theorem added_entry (b : Backend) (entry : LogEntry) :
    Added entry.routingKey [entry] b (b.addEntry entry) :=
  ⟨medium_addEntry b entry, by rw [rowsAt_addEntry, if_pos rfl]; rfl⟩

theorem Added.trans {b'' : Backend} (h : Added rk l b b') (h' : Added rk l' b' b'') :
    Added rk (l ++ l') b b'' := by
  refine ⟨h'.medium.trans h.medium, ?_⟩
  rw [h'.rows, h.rows, h.medium, List.foldl_append]

theorem logs_addEntry (h : b.Logs l) (entry : LogEntry) : (b.addEntry entry).Logs (l ++ [entry]) := by
  cases b with
  | memory s => exact congrArg (· ++ [entry]) (show s.log = l from h)
  | tables s =>
    show s.log ++ [LogRow.of entry] = (l ++ [entry]).map LogRow.of
    rw [List.map_append, show s.log = l.map LogRow.of from h]
    rfl

theorem holdsId_of_logs (h : b.Logs l) (id : String) : b.holdsId id = l.any fun d => d.id = id := by
  cases b with
  | memory s => exact congrArg (List.any · _) (show s.log = l from h)
  | tables s =>
    show s.log.any _ = _
    rw [show s.log = l.map LogRow.of from h, List.any_map]
    rfl

/-! ## 3. One event -/

/-- What a store gives, it also keeps. -/
theorem keeps_of_eventAt {e : Event} (h : b.eventAt rk = .ok (some e)) : b.medium.Keeps e := by
  cases b with
  | memory s => trivial
  | tables s =>
    obtain ⟨t, -, hread⟩ := TableStore.readText_of_decodeOption h
    exact Medium.keeps_of_readText .texts hread

/-- The event was archived over the live record `prior`, which became `d`: the record was put, unless it
stayed as it was, and a copy was added if the event is to be logged and its id is new. -/
structure Archived (b : Backend) (now : Instant) (e prior d : Event) (added : Bool) (b' : Backend) :
    Prop where
  added_eq : added =
    (Archive.logged (e.arriving prior now) && !b.holdsId (e.copy prior now).id)
  store : ∃ b₁, (b₁ = b ∧ d = prior ∨ b₁ = ((Store.putEvent e.routingKey d).runOn b).2) ∧
    b' = if added then b₁.addEntry (e.copy prior now) else b₁

theorem gives_tryAppend (b : Backend) (entry : LogEntry) :
    (Archive.tryAppend entry : Action Backend StoreError Bool).Gives b fun added b' =>
      added = !b.holdsId entry.id ∧ b' = if added then b.addEntry entry else b := by
  have hrun : (Archive.tryAppend entry : Action Backend StoreError Bool).runOn b =
      (.ok (!b.holdsId entry.id), if !b.holdsId entry.id then b.addEntry entry else b) := by
    unfold Archive.tryAppend
    rw [runOn_bind, runOn_attempt, runOn_appendLog]
    cases b.holdsId entry.id <;> rfl
  exact ⟨_, _, hrun, rfl, rfl⟩

/-- **What archiving an event does**, where its key has a live record (`hprior`). The merge itself
never fails, so nothing is asked of the event. -/
theorem gives_archived (a : Archive) (now : Instant)
    (hprior : b.eventAt e.routingKey = .ok (some prior)) :
    ∃ d, prior.update? ((e.arriving prior now).changeOf a.excluded prior) = some d ∧
      (a.process now e).Gives b (Archived b now e prior d) := by
  obtain ⟨d, hd, -, -⟩ := Event.exists_merged a.excluded (e.arriving prior now) prior
  refine ⟨d, hd, ?_⟩
  let log : Action Backend StoreError Bool :=
    if Archive.logged (e.arriving prior now) then Archive.tryAppend (e.copy prior now) else pure false
  -- The log is written after the merged record or in its place, and has the same ids either way.
  have hlog (b₁ : Backend) (hb₁ : b₁ = b ∧ d = prior ∨ b₁ = ((Store.putEvent e.routingKey d).runOn b).2) :
      log.Gives b₁ (Archived b now e prior d) := by
    have hids : b₁.holdsId (e.copy prior now).id = b.holdsId (e.copy prior now).id := by
      rcases hb₁ with ⟨rfl, -⟩ | rfl
      · rfl
      · exact holdsId_putEvent b _ _ _
    show Action.Gives (if _ then _ else _) b₁ _
    cases hlogged : Archive.logged (e.arriving prior now) with
    | true =>
      refine (gives_tryAppend b₁ (e.copy prior now)).weaken ?_
      rintro added b' ⟨hadded, hb'⟩
      refine ⟨?_, b₁, hb₁, hb'⟩
      rw [hadded, hids, hlogged, Bool.true_and]
    | false => exact gives_pure ⟨by rw [hlogged, Bool.false_and], b₁, hb₁, rfl⟩
  have hlook : (Store.getEvent e.routingKey : Action Backend StoreError _).Gives b fun o b' =>
      b' = b ∧ o = some prior := ⟨some prior, b, by rw [runOn_getEvent, hprior], rfl, rfl⟩
  refine hlook.bind ?_
  rintro o b₀ ⟨rfl, rfl⟩
  show Action.Gives (if ((e.arriving prior now).changeOf a.excluded prior).isEmpty = true then log
    else Store.updateEvent e.routingKey _ >>= fun _ => log) b₀ _
  split
  · rename_i hempty
    rw [Event.update?_of_isEmpty prior hempty] at hd
    exact hlog b₀ (Or.inl ⟨rfl, (Option.some.inj hd).symm⟩)
  · have hupdate : (Store.updateEvent e.routingKey ((e.arriving prior now).changeOf a.excluded prior) :
        Action Backend StoreError _).Gives b₀ fun _ b₁ =>
          b₁ = ((Store.putEvent e.routingKey d).runOn b₀).2 := by
      refine ⟨(), _, ?_, rfl⟩
      rw [runOn_updateEvent hprior hd]
      exact Prod.ext (runOn_putEvent b₀ e.routingKey d) rfl
    exact hupdate.bind fun _ b₁ hb₁ => hlog b₁ (Or.inr hb₁)

namespace Archived

variable {added : Bool} (h : Archived b now e prior d added b')

include h

/-- The live record is the one that was put, or it was not touched. -/
theorem eventAt_eq :
    b'.eventAt e.routingKey = ((Store.putEvent e.routingKey d).runOn b).2.eventAt e.routingKey ∨
      d = prior ∧ b'.eventAt e.routingKey = b.eventAt e.routingKey := by
  obtain ⟨b₁, hb₁, hb'⟩ := h.store
  have hsame : b'.eventAt e.routingKey = b₁.eventAt e.routingKey := by
    rw [hb']
    split
    · exact eventAt_addEntry b₁ _ _
    · rfl
  rw [hsame]
  rcases hb₁ with ⟨rfl, hd⟩ | rfl
  · exact Or.inr ⟨hd, rfl⟩
  · exact Or.inl rfl

/-- The merged record is found, as it comes back, if the store keeps the event. The live record itself
was read from the store, so its extra fields are kept already. -/
theorem live {excluded : List String} (hprior : b.eventAt e.routingKey = .ok (some prior))
    (hd : prior.update? ((e.arriving prior now).changeOf excluded prior) = some d)
    (hkeeps : b.medium.Keeps e) :
    ∃ x, b'.eventAt e.routingKey = .ok (some { d with extra := x }) := by
  rcases h.eventAt_eq with hput | ⟨rfl, hsame⟩
  · have hmerged : b.medium.Keeps d :=
      keeps_merged hd (hkeeps.of_extra (e.arriving_extra prior now)) (keeps_of_eventAt hprior)
    obtain ⟨x, hgives, -⟩ := hmerged.gives
    exact ⟨x, by rw [hput, eventAt_putEvent hgives, if_pos rfl]⟩
  · exact ⟨d.extra, hsame.trans hprior⟩

/-- No entry is added under the key but the copy. -/
theorem entries : Added e.routingKey (if added then [e.copy prior now] else []) b b' := by
  obtain ⟨b₁, hb₁, hb'⟩ := h.store
  have hput : Added e.routingKey [] b b₁ := by
    rcases hb₁ with ⟨rfl, -⟩ | rfl
    · exact added_nil rfl rfl
    · exact added_nil (medium_putEvent b _ d) (rowsAt_putEvent b _ _ d)
  rw [hb']
  cases added with
  | true => exact hput.trans (added_entry b₁ (e.copy prior now))
  | false => exact hput

/-- Nor is any added under another one. -/
theorem logs (hl : b.Logs l) : b'.Logs (if added then l ++ [e.copy prior now] else l) := by
  obtain ⟨b₁, hb₁, hb'⟩ := h.store
  have hput : b₁.Logs l := by
    rcases hb₁ with ⟨rfl, -⟩ | rfl
    · exact hl
    · exact logs_putEvent hl _ d
  rw [hb']
  cases added with
  | true => exact logs_addEntry hput _
  | false => exact hput

end Archived

end Backend
end AlertStatus
