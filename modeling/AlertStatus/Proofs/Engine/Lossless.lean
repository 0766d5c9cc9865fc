import AlertStatus.Proofs.Data.Refusal
import AlertStatus.Proofs.Engine.Equivalence
import AlertStatus.Proofs.Store.Archiving

/-!
# Merges lose nothing

A merge writes an event to a document, drops the excluded fields and those that are the same in the live
record, lets the rules add and take away some, makes the change in the document of the live record and
reads that back. For a field that no rule concerns all of this comes to one law (`mergedField`): the
live record keeps its own where the field is excluded, missing from the event or the same in both, and
else it takes the event's, where null stands for nothing.

A store in tables reads the live record from its text. There an extra field with a binary number in it
may come back as its rounding, whether it is new or was there before. `merged_field_by_field` is the law
of both kinds of store, and `rounded_load` is a number that comes back as another one.
-/

set_option autoImplicit false

namespace AlertStatus

namespace Event

variable {excluded : List String} {e prior d : Event} {k : String}

/-! ## 1. The law -/

/-- What a live record holds under a name after a merge, for a name that no rule concerns. It goes by
the documents of the two events alone, and is the same for known and for extra fields. -/
def mergedField (excluded : List String) (e prior : Event) (k : String) : Option Json :=
  match e.toFields.get? k with
  | none => prior.toFields.get? k
  | some v =>
    if k ∈ excluded ∨ (prior.toFields.get? k).any (fun w => w.same v) = true then
      prior.toFields.get? k
    else if v = .null then none
    else some v

/-- No rule concerns the field: it has none, or it has the one for pinned states, and neither the live
record is pinned nor the event pins it. -/
def Unruled (e prior : Event) (k : String) : Prop :=
  k ∉ ruledFields ∨ k ∈ pinnedFields ∧ prior.keepState ≠ some true ∧ e.keepState = none

theorem get?_changeOf_of_unruled (excluded : List String) (h : Unruled e prior k) :
    (e.changeOf excluded prior).get? k = (differences excluded e prior).get? k := by
  rcases h with hk | ⟨hk, hprior, he⟩
  · exact get?_changeOf_of_not_mem excluded e prior hk
  · refine get?_changeOf_of_unpinned excluded he hprior ?_
    fin_cases hk <;> decide

/-- **A merge patches every field of the live record**, known or not. -/
theorem get?_toFields_of_update? (h : prior.update? (e.changeOf excluded prior) = some d)
    (k : String) :
    d.toFields.get? k = patch (e.changeOf excluded prior) k (prior.toFields.get? k) := by
  by_cases hk : k ∈ eventFieldNames
  · rw [get?_toFields_of_known d hk, get?_toFields_of_known prior hk, known_of_update? h hk]
  · rw [get?_toFields_of_unknown d hk, get?_toFields_of_unknown prior hk]
    exact (update?_eq_some_iff.mp h).extra k hk

/-- **The law of a merge**, for a field that no rule concerns (`hk`). A rule may keep the live record's
value or clear it, whatever the event brings. -/
theorem get?_toFields_merged (h : prior.update? (e.changeOf excluded prior) = some d)
    (hk : Unruled e prior k) : d.toFields.get? k = mergedField excluded e prior k := by
  rw [get?_toFields_of_update? h, patch, get?_changeOf_of_unruled excluded hk, get?_differences]
  unfold mergedField
  cases he : e.toFields.get? k with
  | none => rfl
  | some v =>
    dsimp only
    by_cases hkeep : k ∈ excluded ∨ (prior.toFields.get? k).any (fun w => w.same v) = true
    · have hnone : (some v).filter (fun v => k ∉ excluded &&
          !(prior.toFields.get? k).any fun w => w.same v) = none := by
        rw [Option.filter_eq_none_iff]
        rintro u ⟨⟩
        rcases hkeep with hx | hsame
        · simp [hx]
        · simp [hsame]
      rw [hnone, if_pos hkeep]
    · have hsome : (some v).filter (fun v => k ∉ excluded &&
          !(prior.toFields.get? k).any fun w => w.same v) = some v := by
        rw [not_or, Bool.not_eq_true] at hkeep
        rw [Option.filter_eq_some_iff]
        exact ⟨rfl, by simp [hkeep.1, hkeep.2]⟩
      rw [hsome, if_neg hkeep]

/-- The fields of an event that was read back: the known ones as they were, the others as documents are
read back. -/
theorem get?_toFields_reread (e : Event) (k : String) :
    e.reread.toFields.get? k =
      if k ∈ eventFieldNames then e.toFields.get? k else (e.toFields.get? k).map Json.reread := by
  split
  · rename_i hk
    rw [get?_toFields_of_known _ hk, get?_toFields_of_known _ hk]
    rfl
  · rename_i hk
    rw [get?_toFields_of_unknown _ hk, get?_toFields_of_unknown _ hk]
    show (ExtraFields.of (e.toFields.map Json.reread)).fields.get? k = _
    rw [ExtraFields.get?_of, if_neg hk, get?_reread_of_unknown e hk]

end Event

/-! ## 2. What comes back of an event -/

namespace Medium

/-- What a store gives of an event that it keeps. -/
def given (m : Medium) (e : Event) : Event :=
  match m with
  | .values => e
  | .texts => e.reread

theorem Keeps.gives_given {m : Medium} {e : Event} (h : m.Keeps e) : m.Gives e (m.given e) := by
  cases m with
  | values => rfl
  | texts => exact Event.readText_toJson h

/-- Under the name `k` something is seen of a store that holds `held` there. It is the same, unless the
field is an extra one with a binary number in it that the store keeps as a text. Then it is the number
that the reader makes of that text, which may be next to the one that was written. -/
def Shows (m : Medium) (k : String) (held seen : Option Json) : Prop :=
  seen = held ∨
    m = .texts ∧ k ∉ eventFieldNames ∧ ∃ v, held = some v ∧ v.plain = false ∧ seen = some v.reread

/-- A field without a binary number in it is shown as it is held. -/
theorem Shows.eq_of_plain {m : Medium} {k : String} {held seen o : Option Json}
    (h : m.Shows k held seen) (ho : held = o) (hplain : o.all Json.plain = true) : seen = o := by
  subst ho
  rcases h with h | ⟨-, -, v, rfl, hv, -⟩
  · exact h
  · rw [Option.all_some, hv] at hplain
    cases hplain

/-- **Every field of an event is shown** by a store that gives the event. -/
theorem shows_given (m : Medium) (e : Event) (k : String) :
    m.Shows k (e.toFields.get? k) ((m.given e).toFields.get? k) := by
  cases m with
  | values => exact Or.inl rfl
  | texts =>
    have hread := e.get?_toFields_reread k
    by_cases hk : k ∈ eventFieldNames
    · rw [if_pos hk] at hread
      exact Or.inl hread
    · rw [if_neg hk] at hread
      cases he : e.toFields.get? k with
      | none =>
        rw [he] at hread
        exact Or.inl hread
      | some v =>
        rw [he] at hread
        cases hplain : v.plain with
        | true =>
          refine Or.inl (hread.trans ?_)
          rw [Option.map_some, Json.reread_of_plain v hplain]
        | false => exact Or.inr ⟨rfl, hk, v, rfl, hplain, hread⟩

end Medium

/-! ## 3. The archive -/

namespace Backend

variable {b : Backend} {rk : String}

/-- **An event is archived**: the live record comes back as the merged one, or it was not touched. It
is not touched when nothing changes, and then it is not read back from a text once more. -/
theorem gives_merged {excluded : List String} {now : Instant} {e prior d : Event}
    (hprior : b.eventAt e.routingKey = .ok (some prior))
    (hd : prior.update? ((e.arriving prior now).changeOf excluded prior) = some d)
    (hkeeps : b.medium.Keeps d) :
    ((⟨excluded⟩ : Archive).process now e).Gives b fun _ b' =>
      b'.eventAt e.routingKey = .ok (some (b.medium.given d)) ∨
        d = prior ∧ b'.eventAt e.routingKey = .ok (some prior) := by
  obtain ⟨d', hd', hgives⟩ := gives_archived ⟨excluded⟩ now hprior
  obtain rfl : d' = d := Option.some.inj (hd'.symm.trans hd)
  refine hgives.weaken fun _ b' harchived => harchived.eventAt_eq.imp (fun hput => ?_) ?_
  · rw [hput, eventAt_putEvent hkeeps.gives_given, if_pos rfl]
  · exact And.imp_right fun hsame => hsame.trans hprior

/-- **A live record is merged field by field.** Over a store of either kind the archive never fails to
merge an event that the store keeps into a live record that it finds. Of every field that no rule
concerns the live record then shows what `mergedField` says of the stamped event.

The key has a live record (`hprior`); the first event of a key is taken as it is. The store keeps the
event (`hkeeps`), as every store does with those that come from texts (`Medium.keeps_of_readText`). In
tables one that cannot be read back would be merged as well, and then not be found. -/
theorem merged_field_by_field {excluded : List String} {now : Instant} {e prior : Event}
    (hprior : b.eventAt e.routingKey = .ok (some prior)) (hkeeps : b.medium.Keeps e) :
    ((⟨excluded⟩ : Archive).process now e).Gives b fun _ b' =>
      ∃ live, b'.eventAt e.routingKey = .ok (some live) ∧ ∀ k, e.Unruled prior k →
        b.medium.Shows k
          (((e.identified now).stamped prior (e.timestamp.getD now)).mergedField excluded prior k)
          (live.toFields.get? k) := by
  let stamped := (e.identified now).stamped prior (e.timestamp.getD now)
  obtain ⟨d, hd, -, -⟩ := Event.exists_merged excluded stamped prior
  have hstamped : b.medium.Keeps stamped :=
    hkeeps.of_extra (Event.stamped_extra (e.identified now) prior (e.timestamp.getD now))
  have hmerged : b.medium.Keeps d := keeps_merged hd hstamped (keeps_of_eventAt hprior)
  have hfield (k : String) (hk : e.Unruled prior k) :
      d.toFields.get? k = stamped.mergedField excluded prior k := by
    refine Event.get?_toFields_merged hd (hk.imp_right fun h => ⟨h.1, h.2.1, ?_⟩)
    rw [Event.stamped_keepState]
    exact h.2.2
  refine (gives_merged hprior hd hmerged).weaken fun _ b' hlive => ?_
  rcases hlive with hlive | ⟨rfl, hlive⟩
  · refine ⟨_, hlive, fun k hk => ?_⟩
    rw [← hfield k hk]
    exact b.medium.shows_given d k
  · exact ⟨d, hlive, fun k hk => Or.inl (hfield k hk)⟩

/-! ## 4. Two merges -/

/-- A store in tables with the live event of one check. -/
def oneCheck : Backend := ((Store.putEvent webKey (.webCheck 2 1000)).runOn (.tables .empty)).2

theorem eventAt_oneCheck : oneCheck.eventAt webKey = .ok (some (.webCheck 2 1000)) := by
  have htextual : (Event.webCheck 2 1000).Textual := by decide
  have hgives : (Backend.tables .empty).medium.Gives (.webCheck 2 1000) (.webCheck 2 1000) :=
    Event.readText_of_lasting htextual.carries
  rw [oneCheck, eventAt_putEvent hgives, if_pos rfl]

/-- A recovery with an output, a site, and a note that is null. -/
def notedRecovery : Event :=
  { Event.webCheck 0 1100 with
    output := some "up", extra := .of (.ofList [("note", .null), ("site", .str "paris")]) }

theorem merged_field_by_field_notedRecovery :
    ((⟨["output"]⟩ : Archive).process (atSecond 1) notedRecovery).Gives oneCheck fun _ b' =>
      ∃ live, b'.eventAt webKey = .ok (some live) ∧
        live.toFields.get? "state" = some (.ofCheckState .ok) ∧
        live.toFields.get? "output" = none ∧ live.toFields.get? "note" = none ∧
        live.toFields.get? "site" = some (.str "paris") := by
  have hkey : notedRecovery.routingKey = webKey := by decide
  have htextual : notedRecovery.Textual := by decide
  have hkeeps : oneCheck.medium.Keeps notedRecovery := Event.storable_of_lasting htextual.carries
  have hlaw : ((⟨["output"]⟩ : Archive).process (atSecond 1) notedRecovery).Gives oneCheck _ :=
    merged_field_by_field (hkey ▸ eventAt_oneCheck) hkeeps
  let law := ((notedRecovery.identified (atSecond 1)).stamped (.webCheck 2 1000)
    (atSecond 1100)).mergedField ["output"] (.webCheck 2 1000)
  obtain ⟨hstate, houtput, hnote, hsite⟩ : law "state" = some (.ofCheckState .ok) ∧
      law "output" = none ∧ law "note" = none ∧ law "site" = some (.str "paris") := by
    decide +kernel
  refine hlaw.weaken fun _ b' ⟨live, hlive, hfields⟩ => ⟨live, hkey ▸ hlive, ?_, ?_, ?_, ?_⟩
  · exact (hfields "state" (Or.inr (by decide))).eq_of_plain hstate rfl
  · exact (hfields "output" (Or.inr (by decide))).eq_of_plain houtput rfl
  · exact (hfields "note" (Or.inl (by decide))).eq_of_plain hnote rfl
  · exact (hfields "site" (Or.inl (by decide))).eq_of_plain hsite rfl

/-- An event brings a load, and the live record in the tables comes back with the number below. -/
theorem rounded_load :
    oneCheck.eventAt webKey = .ok (some (.webCheck 2 1000)) ∧ "load" ∉ Event.ruledFields ∧
      (((Command.loaded 6305039478318695).identified (atSecond 1)).stamped (.webCheck 2 1000)
        (atSecond 1000)).mergedField [] (.webCheck 2 1000) "load" =
          some (.num (.float ⟨false, 6305039478318695, -52⟩)) ∧
      ((⟨[]⟩ : Archive).process (atSecond 1) (Command.loaded 6305039478318695)).Gives oneCheck
        fun _ b' => ∃ live, b'.eventAt webKey = .ok (some live) ∧
          live.toFields.get? "load" = some (.num (.float ⟨false, 6305039478318694, -52⟩)) := by
  have hkey : (Command.loaded 6305039478318695).routingKey = webKey := by decide
  have hunruled : "load" ∉ Event.ruledFields := by decide
  let stamped := ((Command.loaded 6305039478318695).identified (atSecond 1)).stamped
    (.webCheck 2 1000) (atSecond 1000)
  have hlaw : stamped.mergedField [] (.webCheck 2 1000) "load" =
      some (.num (.float ⟨false, 6305039478318695, -52⟩)) := by decide +kernel
  obtain ⟨d, hd, -, -⟩ := Event.exists_merged [] stamped (.webCheck 2 1000)
  have hload := (Event.get?_toFields_merged hd (Or.inl hunruled)).trans hlaw
  have hkeeps : d.Storable :=
    keeps_merged (m := .texts) hd Command.storable_loaded (keeps_of_eventAt eventAt_oneCheck)
  refine ⟨eventAt_oneCheck, hunruled, hlaw, ?_⟩
  refine (gives_merged (b := oneCheck) (hkey ▸ eventAt_oneCheck) hd hkeeps).weaken fun _ b' hlive => ?_
  rcases hlive with hlive | ⟨rfl, -⟩
  · refine ⟨_, hkey ▸ hlive, ?_⟩
    show d.reread.toFields.get? "load" = _
    rw [Event.get?_toFields_reread, if_neg (by decide), hload]
    decide +kernel
  · -- The event brought the load, so the live record changed.
    cases hload

end Backend
end AlertStatus
