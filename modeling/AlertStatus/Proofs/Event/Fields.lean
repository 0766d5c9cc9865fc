import AlertStatus.Event.Document
import AlertStatus.Proofs.Json.Structures
import Mathlib.Tactic.Choose

/-!
# The fields of an event

An event and its document hold the same, name by name. For a known name the document answers with what
the event holds under it (`Event.known`), for any other name with the extra field. So an event is
settled by its known fields up to what is extra, and fields that each come from *some* event are the
fields of one event. The last is what updates rest on: they put together fields of several events.
-/

set_option autoImplicit false

namespace AlertStatus

/-! ## 1. Remarks -/

namespace Remark

/-- The fields of a remark with their values. -/
def fields (r : Remark) : List (String × Option Json) :=
  [("author", some (.str r.author)),
   ("comment", r.comment.map .str),
   ("timestamp", some (.ofInstant r.timestamp))]

theorem nodup_fields (r : Remark) : (r.fields.map Prod.fst).Nodup := by
  show ["author", "comment", "timestamp"].Nodup
  decide

theorem fits_fields (r : Remark) : Screen.Fits layout r.fields :=
  .cons ⟨rfl, Screen.passes_some encodingText _, fun _ => rfl⟩ <|
  .cons ⟨rfl, Screen.passes_map encodingText _, nofun⟩ <|
  .cons ⟨rfl, Screen.passes_some encodingInstant _, fun _ => rfl⟩ .nil

theorem ofJson?_toJson (r : Remark) : ofJson? r.toJson = some r := by
  let f : Fields := SortedMap.ofList (presentFields r.fields)
  have hf : r.toJson.structureFields? (layout.map Screen.Field.name) = some f :=
    Json.fields?_ofFields f
  have hget : ∀ k, f.get? k = (r.fields.lookup k).join := get?_presentFields r.nodup_fields
  rw [ofJson?, hf, Option.bind_eq_bind, Option.bind_some,
    required_of_get? encodingText (hget "author"), optional_of_get? encodingText (hget "comment"),
    required_of_get? encodingInstant (hget "timestamp")]
  rfl

end Remark

theorem encodingRemark : Encoding Remark.toJson (Readable.screen Remark) Remark.ofJson? where
  stable := fun r => r.fits_fields.stable r.nodup_fields
  admits := fun r => Screen.admits_structure (r.fits_fields.admits r.nodup_fields .skip)
  decodes := Remark.ofJson?_toJson
  present := fun _ h => Json.noConfusion h

namespace Event

/-! ## 2. Look-ups in the document of an event -/

/-- What an event holds under a known name, as it stands in its document. -/
def known (e : Event) (k : String) : Option Json := (e.knownFields.lookup k).join

theorem nodup_names : eventFieldNames.Nodup := by decide

theorem names_knownFields (e : Event) : e.knownFields.map Prod.fst = eventFieldNames := rfl

theorem nodup_knownFields (e : Event) : (e.knownFields.map Prod.fst).Nodup := by
  rw [names_knownFields]
  exact nodup_names

theorem known_of_unknown (e : Event) {k : String} (hk : k ∉ eventFieldNames) : e.known k = none := by
  have hnone : e.knownFields.lookup k = none := by
    rw [List.lookup_eq_none_iff]
    intro m hm
    rw [bne_iff_ne]
    rintro rfl
    exact hk (e.names_knownFields ▸ List.mem_map_of_mem hm)
  rw [known, hnone]
  rfl

theorem known_eq_some_iff {e : Event} {k : String} {v : Json} :
    e.known k = some v ↔ e.knownFields.lookup k = some (some v) := Option.join_eq_some_iff

/-- The known fields go with the layout of an event. -/
theorem fits_knownFields (e : Event) : Screen.Fits layout e.knownFields :=
  .cons ⟨rfl, Screen.passes_map encodingText _, nofun⟩ <|
  .cons ⟨rfl, Screen.passes_some encodingText _, nofun⟩ <|
  .cons ⟨rfl, Screen.passes_some encodingText _, nofun⟩ <|
  .cons ⟨rfl, Screen.passes_some encodingText _, nofun⟩ <|
  .cons ⟨rfl, Screen.passes_some encodingText _, nofun⟩ <|
  .cons ⟨rfl, Screen.passes_some encodingText _, nofun⟩ <|
  .cons ⟨rfl, Screen.passes_map encodingText _, nofun⟩ <|
  .cons ⟨rfl, Screen.passes_some encodingCheckState _, nofun⟩ <|
  .cons ⟨rfl, Screen.passes_some encodingCheckState _, nofun⟩ <|
  .cons ⟨rfl, Screen.passes_map encodingInstant _, nofun⟩ <|
  .cons ⟨rfl, Screen.passes_map encodingText _, nofun⟩ <|
  .cons ⟨rfl, Screen.passes_map encodingText _, nofun⟩ <|
  .cons ⟨rfl, Screen.passes_map encodingStatus _, nofun⟩ <|
  .cons ⟨rfl, Screen.passes_map encodingCheckState _, nofun⟩ <|
  .cons ⟨rfl, Screen.passes_map encodingInstant _, nofun⟩ <|
  .cons ⟨rfl, Screen.passes_map encodingInstant _, nofun⟩ <|
  .cons ⟨rfl, Screen.passes_map encodingRemark _, nofun⟩ <|
  .cons ⟨rfl, Screen.passes_map encodingRemark _, nofun⟩ <|
  .cons ⟨rfl, Screen.passes_map encodingText _, nofun⟩ <|
  .cons ⟨rfl, Screen.passes_map encodingInstant _, nofun⟩ <|
  .cons ⟨rfl, Screen.passes_map encodingText _, nofun⟩ <|
  .cons ⟨rfl, Screen.passes_map encodingInstant _, nofun⟩ <|
  .cons ⟨rfl, Screen.passes_map encodingFlag _, nofun⟩ <|
  .cons ⟨rfl, Screen.passes_map encodingText _, nofun⟩ .nil

/-- What an event does not have is left out of its document, and never written as null. -/
theorem known_ne_null {e : Event} {k : String} {v : Json} (h : e.known k = some v) : v ≠ .null := by
  obtain ⟨s, -, -, -, hv⟩ := e.fits_knownFields.screenOf? (known_eq_some_iff.mp h)
  exact hv

/-- An extra field has a name that the engine does not know. -/
theorem ExtraFields.get?_of_known (x : ExtraFields) {k : String} (hk : k ∈ eventFieldNames) :
    x.fields.get? k = none := by
  cases hv : x.fields.get? k with
  | none => rfl
  | some v => exact absurd hk (x.unknown (k, v) (SortedMap.get?_eq_some_iff.mp hv))

theorem get?_toFields (e : Event) (k : String) :
    e.toFields.get? k = (e.known k).or (e.extra.fields.get? k) := by
  rw [toFields, SortedMap.get?_foldl_insert (nodup_presentFields e.nodup_knownFields),
    lookup_presentFields e.nodup_knownFields]
  rfl

/-- **Under a known name the document holds what the event holds.** -/
theorem get?_toFields_of_known (e : Event) {k : String} (hk : k ∈ eventFieldNames) :
    e.toFields.get? k = e.known k := by
  rw [get?_toFields, ExtraFields.get?_of_known e.extra hk, Option.or_none]

theorem get?_toFields_of_unknown (e : Event) {k : String} (hk : k ∉ eventFieldNames) :
    e.toFields.get? k = e.extra.fields.get? k := by
  rw [get?_toFields, known_of_unknown e hk, Option.none_or]

theorem ExtraFields.get?_of (f : Fields) (k : String) :
    (ExtraFields.of f).fields.get? k = if k ∈ eventFieldNames then none else f.get? k := by
  show (f.filter fun k _ => k ∉ eventFieldNames).get? k = _
  rw [SortedMap.get?_filter]
  by_cases hk : k ∈ eventFieldNames
  · rw [if_pos hk]
    cases f.get? k <;> simp [Option.filter, hk]
  · rw [if_neg hk]
    cases f.get? k <;> simp [Option.filter, hk]

theorem ExtraFields.ext_get? {x y : ExtraFields} (h : ∀ k, x.fields.get? k = y.fields.get? k) :
    x = y := by
  cases x with
  | mk f hf =>
    cases y with
    | mk g hg =>
      have : f = g := SortedMap.ext_get? h
      subst this
      rfl

theorem ExtraFields.of_toFields (e : Event) : ExtraFields.of e.toFields = e.extra := by
  refine ExtraFields.ext_get? fun k => ?_
  rw [ExtraFields.get?_of]
  by_cases hk : k ∈ eventFieldNames
  · rw [if_pos hk, ExtraFields.get?_of_known _ hk]
  · rw [if_neg hk, get?_toFields_of_unknown e hk]

/-! ## 3. Events from fields -/

/-- **Fields that answer to the known names as `e` does are read as `e`**, with what else they hold
as its extra fields. -/
theorem ofFields?_of_known {f : Fields} {e : Event} (h : ∀ k ∈ eventFieldNames, f.get? k = e.known k) :
    ofFields? f = some { e with extra := .of f } := by
  rw [ofFields?, optional_of_get? encodingText (h "rk" (by decide)),
    withDefault_of_get? encodingText (h "connector" (by decide)),
    withDefault_of_get? encodingText (h "connector_name" (by decide)),
    withDefault_of_get? encodingText (h "event_type" (by decide)),
    withDefault_of_get? encodingText (h "source_type" (by decide)),
    withDefault_of_get? encodingText (h "component" (by decide)),
    optional_of_get? encodingText (h "resource" (by decide)),
    withDefault_of_get? encodingCheckState (h "state" (by decide)),
    withDefault_of_get? encodingCheckState (h "state_type" (by decide)),
    optional_of_get? encodingInstant (h "timestamp" (by decide)),
    optional_of_get? encodingText (h "output" (by decide)),
    optional_of_get? encodingText (h "long_output" (by decide)),
    optional_of_get? encodingStatus (h "status" (by decide)),
    optional_of_get? encodingCheckState (h "previous_state" (by decide)),
    optional_of_get? encodingInstant (h "last_state_change" (by decide)),
    optional_of_get? encodingInstant (h "previous_state_change_ts" (by decide)),
    optional_of_get? encodingRemark (h "ack" (by decide)),
    optional_of_get? encodingRemark (h "cancel" (by decide)),
    optional_of_get? encodingText (h "ticket" (by decide)),
    optional_of_get? encodingInstant (h "ticket_date" (by decide)),
    optional_of_get? encodingText (h "ticket_declared_author" (by decide)),
    optional_of_get? encodingInstant (h "ticket_declared_date" (by decide)),
    optional_of_get? encodingFlag (h "keep_state" (by decide)),
    optional_of_get? encodingText (h "change_state_output" (by decide))]
  rfl

theorem ofFields?_toFields (e : Event) : ofFields? e.toFields = some e := by
  rw [ofFields?_of_known fun k hk => get?_toFields_of_known e hk, ExtraFields.of_toFields]

/-- An event is settled by what its document holds. -/
theorem ext_get? {e d : Event} (h : ∀ k, e.toFields.get? k = d.toFields.get? k) : e = d := by
  have hfields : e.toFields = d.toFields := SortedMap.ext_get? h
  have hread := ofFields?_toFields e
  rw [hfields, ofFields?_toFields] at hread
  exact (Option.some.inj hread).symm

/-- **Fields that each come from some event come from one.** -/
theorem exists_of_known {f : Fields} (h : ∀ k ∈ eventFieldNames, ∃ e : Event, f.get? k = e.known k) :
    ∃ e : Event, ofFields? f = some e ∧ e.extra = .of f ∧
      ∀ k ∈ eventFieldNames, e.known k = f.get? k := by
  have : Nonempty Event := ⟨blank⟩
  choose! source hsource using h
  let e : Event :=
    { rk := (source "rk").rk
      connector := (source "connector").connector
      connectorName := (source "connector_name").connectorName
      eventType := (source "event_type").eventType
      sourceType := (source "source_type").sourceType
      component := (source "component").component
      resource := (source "resource").resource
      state := (source "state").state
      stateType := (source "state_type").stateType
      timestamp := (source "timestamp").timestamp
      output := (source "output").output
      longOutput := (source "long_output").longOutput
      status := (source "status").status
      previousState := (source "previous_state").previousState
      lastStateChange := (source "last_state_change").lastStateChange
      previousStateChange := (source "previous_state_change_ts").previousStateChange
      ack := (source "ack").ack
      cancel := (source "cancel").cancel
      ticket := (source "ticket").ticket
      ticketDate := (source "ticket_date").ticketDate
      ticketAuthor := (source "ticket_declared_author").ticketAuthor
      ticketDeclared := (source "ticket_declared_date").ticketDeclared
      keepState := (source "keep_state").keepState
      changeStateOutput := (source "change_state_output").changeStateOutput
      extra := .of f }
  have hknown : ∀ k ∈ eventFieldNames, (source k).known k = e.known k := by
    simp only [eventFieldNames, List.forall_mem_cons]
    exact ⟨rfl, rfl, rfl, rfl, rfl, rfl, rfl, rfl, rfl, rfl, rfl, rfl, rfl, rfl, rfl, rfl, rfl, rfl,
      rfl, rfl, rfl, rfl, rfl, rfl, fun k hk => absurd hk List.not_mem_nil⟩
  have hfields : ∀ k ∈ eventFieldNames, f.get? k = e.known k :=
    fun k hk => (hsource k hk).trans (hknown k hk)
  exact ⟨e, ofFields?_of_known hfields, rfl, fun k hk => (hfields k hk).symm⟩

end Event
end AlertStatus
