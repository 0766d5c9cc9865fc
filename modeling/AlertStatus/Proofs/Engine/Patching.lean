import AlertStatus.Proofs.Engine.Redelivery

/-!
# Partial updates of live events

A partial update of a live event is made as a whole or not at all (`patched_field_by_field`). It is
refused when the change brings a value for a known field that is not of the field's type, and then the
store stays as it was. Else the live event is put back with the change made in it field by field. No
other live event is touched, nor a status, nor the log.

A live event in tables was read from a text. There an extra field with a binary number in it may be
another one after the update, even if the change does not name it, and an event that became too deep to
be read is not found again (`not_shown_as_patched`).
-/

set_option autoImplicit false

namespace AlertStatus

/-! ## 1. What comes back -/

namespace Event

variable {change : Fields} {e d : Event}

/-- The patched event can be read back from a text when the change goes no deeper than texts are read. -/
theorem Patched.storable_iff (hd : Patched change e d) (he : e.Storable)
    (hchange : ∀ k v, change.get? k = some v → v.Sound) :
    d.Storable ↔ ∀ k, k ∉ eventFieldNames → ∀ v, change.get? k = some v →
      v.depth < Json.depthLimit := by
  constructor
  · intro h k hk v hv
    by_cases hnull : v = .null
    · rw [hnull]
      decide
    · have hput : d.extra.fields.get? k = some v := by
        rw [hd.extra k hk, patch_of_some hv, if_neg hnull]
      exact (h k v hput).2
  · intro h k v hv
    obtain ⟨hk, hc | hv⟩ := hd.extra_cases hv
    · exact ⟨hchange k v hc, h k hk v hc⟩
    · exact he k v hv

end Event

namespace Medium

variable {m : Medium} {change : Fields} {e d live : Event}

/-- The unknown fields of the change go no deeper than the store reads its texts. In memory that is no
condition, and in tables it is one on the change alone, since the live event was read from a text. -/
def KeepsChange (m : Medium) (change : Fields) : Prop :=
  m = .texts → ∀ k, k ∉ eventFieldNames → ∀ v, change.get? k = some v → v.depth < Json.depthLimit

theorem Keeps.returned (h : m.Keeps d) : m.returned d = .ok (some (m.given d)) := by
  cases m with
  | values => rfl
  | texts =>
    have hread : readText Event d.toJson.text = .ok d.reread := h.gives_given
    show TableStore.decodeOption (some d.toJson.text) = _
    rw [TableStore.decodeOption, TableStore.decode, hread]
    rfl

/-- **A patched event is found again when the store keeps the change**, and then it is what the store
gives of it. The change consists of sound documents (`hchange`), as every document that was read
does. -/
theorem returned_patched (he : m.Keeps e) (hchange : ∀ k v, change.get? k = some v → v.Sound)
    (hd : Event.Patched change e d) :
    ((∃ live, m.returned d = .ok (some live)) ↔ m.KeepsChange change) ∧
      ∀ live, m.returned d = .ok (some live) → live = m.given d := by
  have hkeeps : m.Keeps d ↔ m.KeepsChange change := by
    cases m with
    | values => exact ⟨nofun, fun _ => trivial⟩
    | texts => exact (hd.storable_iff he hchange).trans ⟨fun h _ => h, fun h => h rfl⟩
  have hfound (live : Event) (h : m.returned d = .ok (some live)) : m.Keeps d := by
    cases m with
    | values => trivial
    | texts =>
      have hcell : TableStore.decodeOption (some d.toJson.text) = .ok (some live) := h
      obtain ⟨t, ht, hread⟩ := TableStore.readText_of_decodeOption hcell
      rw [← Option.some.inj ht] at hread
      refine Event.storable_of_readText_toJson (fun k v hv => ?_) hread
      exact (hd.extra_cases hv).2.elim (hchange k v) fun hv => (he k v hv).1
  refine ⟨⟨fun ⟨live, h⟩ => hkeeps.mp (hfound live h), fun h => ?_⟩, fun live h => ?_⟩
  · exact ⟨_, (hkeeps.mpr h).returned⟩
  · exact Option.some.inj (Except.ok.inj (h.symm.trans (hfound live h).returned))

theorem get_given {F : KnownField} (hF : F ∈ Event.schema) (m : Medium) (e : Event) :
    F.get (m.given e) = F.get e := by
  cases m with
  | values => rfl
  | texts => exact Event.get_of_extra hF e _

end Medium

/-! ## 2. Updates -/

namespace Backend

variable {b b' : Backend} {rk : String} {change : Fields} {o : Except StoreError Unit}

/-- **A live event is patched field by field, or the store stays as it was.** An update of a live event
by the fields of a sound document succeeds exactly when none of them is of another type than the known
field of its name. Then the patched event is written. It is found again unless the change goes deeper
than the store reads, and shown as it comes back.

Every document that was read from a text is sound (`hchange`): its numbers are finite and its members
are in order of their names. The others are no documents, and what is written for them may be read as
something else. Nothing else is asked of the change, of the live event or of the store. -/
theorem patched_field_by_field (hchange : ∀ k v, change.get? k = some v → v.Sound)
    (h : (Store.updateEvent rk change).runOn b = (o, b')) :
    b.SameBut rk b' ∧ (o ≠ .ok () → b' = b) ∧
      ∀ e, b.eventAt rk = .ok (some e) →
        (o = .ok () ↔ ∀ F ∈ Event.schema, F.Takes change) ∧
        (o = .ok () → ∃ d, Event.Patched change e d ∧ b' = ((Store.putEvent rk d).runOn b).2 ∧
          ((∃ live, b'.eventAt rk = .ok (some live)) ↔ b.medium.KeepsChange change) ∧
          ∀ live, b'.eventAt rk = .ok (some live) →
            (∀ F ∈ Event.schema, F.get live = F.get d) ∧
            ∀ k, k ∉ eventFieldNames →
              b.medium.Shows k (d.extra.fields.get? k) (live.extra.fields.get? k)) := by
  rcases updateEvent_cases h with ⟨⟨x, rfl⟩, rfl, hrefused⟩ | ⟨e, d, hlive, hupdate, rfl, rfl⟩
  · refine ⟨.refl rk b', fun _ => rfl, fun e he => ⟨⟨nofun, fun htakes => ?_⟩, nofun⟩⟩
    obtain ⟨d, hd⟩ := Event.exists_update?_iff.mpr htakes
    cases (hrefused e he).symm.trans hd
  · refine ⟨sameBut_putEvent rk b d, fun hok => absurd rfl hok, fun e' he' => ?_⟩
    obtain rfl : e = e' := Option.some.inj (Except.ok.inj (hlive.symm.trans he'))
    have hpatched := Event.update?_eq_some_iff.mp hupdate
    obtain ⟨hfound, hgiven⟩ := Medium.returned_patched (keeps_of_eventAt hlive) hchange hpatched
    refine ⟨⟨fun _ => Event.exists_update?_iff.mp ⟨d, hupdate⟩, fun _ => rfl⟩, fun _ => ?_⟩
    rw [eventAt_put, if_pos rfl]
    refine ⟨d, hpatched, rfl, hfound, fun live hreturned => ?_⟩
    rw [hgiven live hreturned]
    refine ⟨fun F hF => Medium.get_given hF b.medium d, fun k hk => ?_⟩
    have hshows := b.medium.shows_given d k
    rwa [Event.get?_toFields_of_unknown _ hk, Event.get?_toFields_of_unknown _ hk] at hshows

/-- A change that takes a known field away and brings two others and an unknown one. -/
def webRecovery : Fields :=
  .ofList
    [("connector", .null), ("output", .str "up"), ("site", .str "paris"), ("state", .ofCheckState .ok)]

/-- A change of the state to a text. -/
def wrongState : Fields := .ofList [("state", .str "down")]

theorem sound_of_entries (h : ∀ m ∈ change.entries, m.2.plain = true) {k : String} {v : Json}
    (hv : change.get? k = some v) : v.Sound :=
  Json.sound_of_plain v (h (k, v) (SortedMap.get?_eq_some_iff.mp hv))

theorem keepsChange_webRecovery (m : Medium) : m.KeepsChange webRecovery := by
  intro _ k _ v hv
  have hmem := SortedMap.get?_eq_some_iff.mp hv
  fin_cases hmem <;> decide

theorem patched_field_by_field_webRecovery :
    oneCheck.eventAt webKey = .ok (some (.webCheck 2 1000)) ∧
    (∃ b' live, (Store.updateEvent webKey webRecovery).runOn oneCheck = (.ok (), b') ∧
      b'.eventAt webKey = .ok (some live) ∧ live.connector = "" ∧ live.component = "web01" ∧
      live.state = .ok ∧ live.output = some "up" ∧
      live.extra.fields.get? "site" = some (.str "paris")) ∧
    ∃ o, o ≠ .ok () ∧ (Store.updateEvent webKey wrongState).runOn oneCheck = (o, oneCheck) := by
  have hrecovery : ∀ k v, webRecovery.get? k = some v → v.Sound :=
    fun _ _ => sound_of_entries (by decide)
  have hwrong : ∀ k v, wrongState.get? k = some v → v.Sound := fun _ _ => sound_of_entries (by decide)
  refine ⟨eventAt_oneCheck, ?_, ?_⟩
  · obtain ⟨o, b', hrun⟩ : ∃ o b', (Store.updateEvent webKey webRecovery).runOn oneCheck = (o, b') :=
      ⟨_, _, rfl⟩
    obtain ⟨-, -, hlaw⟩ := patched_field_by_field hrecovery hrun
    obtain ⟨hok, hpatched⟩ := hlaw _ eventAt_oneCheck
    have htakes : ∀ F ∈ Event.schema, F.Takes webRecovery := by
      simp only [Event.schema, List.forall_mem_cons]
      decide +kernel
    obtain rfl := hok.mpr htakes
    obtain ⟨d, ⟨hknown, hextra⟩, -, hfound, hshown⟩ := hpatched rfl
    obtain ⟨live, hlive⟩ := hfound.mpr (keepsChange_webRecovery _)
    obtain ⟨hsame, hshows⟩ := hshown live hlive
    have hupdated : ∀ F ∈ Event.schema, F.updated? webRecovery (.webCheck 2 1000) = some (F.get live) :=
      fun F hF => hsame F hF ▸ hknown F hF
    simp only [Event.schema, List.forall_mem_cons] at hupdated
    obtain ⟨-, hconnector, -, -, -, hcomponent, -, hstate, -, -, houtput, -⟩ := hupdated
    have hsite : d.extra.fields.get? "site" = some (.str "paris") := hextra "site" (by decide)
    exact ⟨b', live, hrun, hlive, Option.some.inj hconnector.symm, Option.some.inj hcomponent.symm,
      Option.some.inj hstate.symm, Option.some.inj houtput.symm,
      (hshows "site" (by decide)).eq_of_plain hsite rfl⟩
  · obtain ⟨o, b', hrun⟩ : ∃ o b', (Store.updateEvent webKey wrongState).runOn oneCheck = (o, b') :=
      ⟨_, _, rfl⟩
    obtain ⟨-, hunchanged, hlaw⟩ := patched_field_by_field hwrong hrun
    have hrefused : o ≠ .ok () := by
      rw [Ne, (hlaw _ eventAt_oneCheck).1]
      simp only [Event.schema, List.forall_mem_cons]
      decide +kernel
    obtain rfl := hunchanged hrefused
    exact ⟨o, hrefused, hrun⟩

/-- A list in `n` other lists. -/
def nestedLists : Nat → Json
  | 0 => .arr []
  | n + 1 => .arr [nestedLists n]

/-- A change of an unknown field to a list that is too deep to be read back. -/
def deepTags : Fields := .ofList [("tags", nestedLists Json.depthLimit)]

theorem not_keepsChange_deepTags : ¬ Medium.texts.KeepsChange deepTags := fun h =>
  absurd (h rfl "tags" (by decide) (nestedLists Json.depthLimit) rfl) (by decide +kernel)

/-- In tables an update may not be shown as it was made. The first one names the state alone, and the
load of the live event comes back as the next number. After the second one the live event is not found. -/
theorem not_shown_as_patched :
    ((loadWritten 0).eventAt webKey = .ok (some (heldLoad 1)) ∧
      ∃ b' live, (Store.updateEvent webKey (.ofList [("state", .ofCheckState .ok)])).runOn (loadWritten 0) =
          (.ok (), b') ∧
        b'.eventAt webKey = .ok (some live) ∧
        live.extra.fields.get? "load" ≠ (heldLoad 1).extra.fields.get? "load") ∧
    oneCheck.eventAt webKey = .ok (some (.webCheck 2 1000)) ∧
      ∃ b', (Store.updateEvent webKey deepTags).runOn oneCheck = (.ok (), b') ∧
        ¬ ∃ live, b'.eventAt webKey = .ok (some live) := by
  refine ⟨?_, eventAt_oneCheck, ?_⟩
  · have hlive : (loadWritten 0).eventAt webKey = .ok (some (heldLoad 1)) :=
      eventAt_loadWritten (by decide) (by decide +kernel)
    let d : Event := { heldLoad 1 with state := .ok }
    have hupdate : (heldLoad 1).update? (.ofList [("state", .ofCheckState .ok)]) = some d := by
      decide +kernel
    have hkeeps : (loadWritten 0).medium.Keeps d := (keeps_of_eventAt hlive).of_extra rfl
    refine ⟨hlive, ((Store.putEvent webKey d).runOn (loadWritten 0)).2, d.reread, ?_, ?_, ?_⟩
    · rw [runOn_updateEvent hlive hupdate]
      exact Prod.ext (runOn_putEvent _ webKey d) rfl
    · have hgives : (loadWritten 0).medium.Gives d d.reread := hkeeps.gives_given
      rw [eventAt_putEvent hgives, if_pos rfl]
    · decide +kernel
  · obtain ⟨d, hupdate⟩ : ∃ d, (Event.webCheck 2 1000).update? deepTags = some d := by
      refine Event.exists_update?_iff.mpr ?_
      simp only [Event.schema, List.forall_mem_cons]
      decide +kernel
    refine ⟨((Store.putEvent webKey d).runOn oneCheck).2, ?_, ?_⟩
    · rw [runOn_updateEvent eventAt_oneCheck hupdate]
      exact Prod.ext (runOn_putEvent _ webKey d) rfl
    · have hsound : ∀ k v, deepTags.get? k = some v → v.Sound :=
        fun _ _ => sound_of_entries (by decide +kernel)
      have hpatched := Event.update?_eq_some_iff.mp hupdate
      rw [eventAt_put, if_pos rfl,
        (Medium.returned_patched (keeps_of_eventAt eventAt_oneCheck) hsound hpatched).1]
      exact not_keepsChange_deepTags

end Backend
end AlertStatus
