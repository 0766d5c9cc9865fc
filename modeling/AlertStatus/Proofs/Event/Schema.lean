import AlertStatus.Proofs.Event.Fields
import Mathlib.Tactic.FinCases

/-!
# The fields that the engine knows

`Event.schema` lists the fields that the engine knows: for each of them its name in a document, its place
in an event, how its value is read, and what an event has that brings none. An event is read from a
document field by field (`Event.ofFields?_eq_some_iff`), and a document is one of an event when each of
these fields can be read (`Event.exists_ofFields?_iff`).
-/

set_option autoImplicit false

namespace AlertStatus

/-! ## 1. Fields -/

/-- A field that the engine knows. -/
structure KnownField where
  /-- The type of its values. -/
  Value : Type
  /-- Its name in a document. -/
  name : String
  get : Event → Value
  read? : Json → Option Value
  /-- What an event has that brings none. -/
  missing : Value

namespace KnownField

section Kinds

variable {α : Type}

/-- A field that may be missing or null. -/
def optional (name : String) (get : Event → Option α) (decode : Json → Option α) : KnownField where
  Value := Option α
  name := name
  get := get
  read? v := if v = .null then some none else (decode v).map some
  missing := none

/-- A field that may be missing, but is always there in an event. -/
def withDefault (name : String) (get : Event → α) (default : α) (decode : Json → Option α) :
    KnownField where
  Value := α
  name := name
  get := get
  read? := decode
  missing := default

end Kinds

/-- What is read for the field from the fields of a document. -/
def lookup? (F : KnownField) (f : Fields) : Option F.Value :=
  match f.get? F.name with
  | none => some F.missing
  | some v => F.read? v

section Kinds

variable {α : Type} {f : Fields} {decode : Json → Option α}

theorem lookup?_optional (name : String) (get : Event → Option α) :
    (optional name get decode).lookup? f = f.optional name decode := by
  show (match f.get? name with | none => some none | some v => _) = _
  unfold Fields.optional
  cases f.get? name with
  | none => rfl
  | some v => cases v <;> rfl

theorem lookup?_withDefault (name : String) (get : Event → α) (default : α) :
    (withDefault name get default decode).lookup? f = f.withDefault name default decode := rfl

end Kinds

end KnownField

namespace Event

/-- The fields that the engine knows, as `ofFields?` reads them. -/
def schema : List KnownField :=
  [.optional "rk" Event.rk Json.str?,
   .withDefault "connector" Event.connector "" Json.str?,
   .withDefault "connector_name" Event.connectorName "" Json.str?,
   .withDefault "event_type" Event.eventType "" Json.str?,
   .withDefault "source_type" Event.sourceType "" Json.str?,
   .withDefault "component" Event.component "" Json.str?,
   .optional "resource" Event.resource Json.str?,
   .withDefault "state" Event.state .ok Json.checkState?,
   .withDefault "state_type" Event.stateType (CheckState.ok.nearest 1) Json.checkState?,
   .optional "timestamp" Event.timestamp Json.instant?,
   .optional "output" Event.output Json.str?,
   .optional "long_output" Event.longOutput Json.str?,
   .optional "status" Event.status Status.ofJson?,
   .optional "previous_state" Event.previousState Json.checkState?,
   .optional "last_state_change" Event.lastStateChange Json.instant?,
   .optional "previous_state_change_ts" Event.previousStateChange Json.instant?,
   .optional "ack" Event.ack Remark.ofJson?,
   .optional "cancel" Event.cancel Remark.ofJson?,
   .optional "ticket" Event.ticket Json.str?,
   .optional "ticket_date" Event.ticketDate Json.instant?,
   .optional "ticket_declared_author" Event.ticketAuthor Json.str?,
   .optional "ticket_declared_date" Event.ticketDeclared Json.instant?,
   .optional "keep_state" Event.keepState Json.bool?,
   .optional "change_state_output" Event.changeStateOutput Json.str?]

theorem names_schema : schema.map KnownField.name = eventFieldNames := rfl

theorem get_of_extra {F : KnownField} (hF : F ∈ schema) (d : Event) (x : ExtraFields) :
    F.get { d with extra := x } = F.get d := by
  fin_cases hF <;> rfl

/-! ## 2. Reading -/

variable {f : Fields} {d : Event}

/-- **An event is read field by field.** The schema has each known field with its decoder, and all
other members of the document are the extra fields. -/
theorem ofFields?_eq_some_iff :
    ofFields? f = some d ↔ (∀ F ∈ schema, F.lookup? f = some (F.get d)) ∧ d.extra = .of f := by
  simp only [schema, List.forall_mem_cons, KnownField.lookup?_optional,
    KnownField.lookup?_withDefault]
  constructor
  · intro h
    unfold ofFields? at h
    -- One look-up for each known field, and then the event.
    obtain ⟨rk, hrk, h⟩ := Option.bind_eq_some_iff.mp h
    obtain ⟨connector, hconnector, h⟩ := Option.bind_eq_some_iff.mp h
    obtain ⟨connectorName, hconnectorName, h⟩ := Option.bind_eq_some_iff.mp h
    obtain ⟨eventType, heventType, h⟩ := Option.bind_eq_some_iff.mp h
    obtain ⟨sourceType, hsourceType, h⟩ := Option.bind_eq_some_iff.mp h
    obtain ⟨component, hcomponent, h⟩ := Option.bind_eq_some_iff.mp h
    obtain ⟨resource, hresource, h⟩ := Option.bind_eq_some_iff.mp h
    obtain ⟨state, hstate, h⟩ := Option.bind_eq_some_iff.mp h
    obtain ⟨stateType, hstateType, h⟩ := Option.bind_eq_some_iff.mp h
    obtain ⟨timestamp, htimestamp, h⟩ := Option.bind_eq_some_iff.mp h
    obtain ⟨output, houtput, h⟩ := Option.bind_eq_some_iff.mp h
    obtain ⟨longOutput, hlongOutput, h⟩ := Option.bind_eq_some_iff.mp h
    obtain ⟨status, hstatus, h⟩ := Option.bind_eq_some_iff.mp h
    obtain ⟨previousState, hpreviousState, h⟩ := Option.bind_eq_some_iff.mp h
    obtain ⟨lastStateChange, hlastStateChange, h⟩ := Option.bind_eq_some_iff.mp h
    obtain ⟨previousStateChange, hpreviousStateChange, h⟩ := Option.bind_eq_some_iff.mp h
    obtain ⟨ack, hack, h⟩ := Option.bind_eq_some_iff.mp h
    obtain ⟨cancel, hcancel, h⟩ := Option.bind_eq_some_iff.mp h
    obtain ⟨ticket, hticket, h⟩ := Option.bind_eq_some_iff.mp h
    obtain ⟨ticketDate, hticketDate, h⟩ := Option.bind_eq_some_iff.mp h
    obtain ⟨ticketAuthor, hticketAuthor, h⟩ := Option.bind_eq_some_iff.mp h
    obtain ⟨ticketDeclared, hticketDeclared, h⟩ := Option.bind_eq_some_iff.mp h
    obtain ⟨keepState, hkeepState, h⟩ := Option.bind_eq_some_iff.mp h
    obtain ⟨changeStateOutput, hchangeStateOutput, h⟩ := Option.bind_eq_some_iff.mp h
    cases h
    exact ⟨⟨hrk, hconnector, hconnectorName, heventType, hsourceType, hcomponent, hresource, hstate,
      hstateType, htimestamp, houtput, hlongOutput, hstatus, hpreviousState, hlastStateChange,
      hpreviousStateChange, hack, hcancel, hticket, hticketDate, hticketAuthor, hticketDeclared,
      hkeepState, hchangeStateOutput, fun _ hF => absurd hF List.not_mem_nil⟩, rfl⟩
  · rintro ⟨⟨hrk, hconnector, hconnectorName, heventType, hsourceType, hcomponent, hresource, hstate,
      hstateType, htimestamp, houtput, hlongOutput, hstatus, hpreviousState, hlastStateChange,
      hpreviousStateChange, hack, hcancel, hticket, hticketDate, hticketAuthor, hticketDeclared,
      hkeepState, hchangeStateOutput, -⟩, hextra⟩
    have hstate' : f.withDefault "state" blank.state Json.checkState? = _ := hstate
    have hstateType' : f.withDefault "state_type" blank.stateType Json.checkState? = _ := hstateType
    rw [ofFields?, hrk, hconnector, hconnectorName, heventType, hsourceType, hcomponent, hresource,
      hstate', hstateType', htimestamp, houtput, hlongOutput, hstatus, hpreviousState,
      hlastStateChange, hpreviousStateChange, hack, hcancel, hticket, hticketDate, hticketAuthor,
      hticketDeclared, hkeepState, hchangeStateOutput, ← hextra]
    rfl

/-- **A document is an event when each of its known fields can be read.** -/
theorem exists_ofFields?_iff :
    (∃ d, ofFields? f = some d) ↔ ∀ F ∈ schema, (F.lookup? f).isSome = true := by
  constructor
  · rintro ⟨d, hd⟩ F hF
    rw [(ofFields?_eq_some_iff.mp hd).1 F hF]
    rfl
  · intro h
    simp only [schema, List.forall_mem_cons, Option.isSome_iff_exists] at h
    obtain ⟨⟨rk, hrk⟩, ⟨connector, hconnector⟩, ⟨connectorName, hconnectorName⟩,
      ⟨eventType, heventType⟩, ⟨sourceType, hsourceType⟩, ⟨component, hcomponent⟩,
      ⟨resource, hresource⟩, ⟨state, hstate⟩, ⟨stateType, hstateType⟩, ⟨timestamp, htimestamp⟩,
      ⟨output, houtput⟩, ⟨longOutput, hlongOutput⟩, ⟨status, hstatus⟩,
      ⟨previousState, hpreviousState⟩, ⟨lastStateChange, hlastStateChange⟩,
      ⟨previousStateChange, hpreviousStateChange⟩, ⟨ack, hack⟩, ⟨cancel, hcancel⟩,
      ⟨ticket, hticket⟩, ⟨ticketDate, hticketDate⟩, ⟨ticketAuthor, hticketAuthor⟩,
      ⟨ticketDeclared, hticketDeclared⟩, ⟨keepState, hkeepState⟩,
      ⟨changeStateOutput, hchangeStateOutput⟩, -⟩ := h
    let d : Event :=
      { rk, connector, connectorName, eventType, sourceType, component, resource, state, stateType,
        timestamp, output, longOutput, status, previousState, lastStateChange, previousStateChange,
        ack, cancel, ticket, ticketDate, ticketAuthor, ticketDeclared, keepState, changeStateOutput,
        extra := .of f }
    refine ⟨d, ofFields?_eq_some_iff.mpr ⟨?_, rfl⟩⟩
    simp only [schema, List.forall_mem_cons]
    exact ⟨hrk, hconnector, hconnectorName, heventType, hsourceType, hcomponent, hresource, hstate,
      hstateType, htimestamp, houtput, hlongOutput, hstatus, hpreviousState, hlastStateChange,
      hpreviousStateChange, hack, hcancel, hticket, hticketDate, hticketAuthor, hticketDeclared,
      hkeepState, hchangeStateOutput, fun _ hF => absurd hF List.not_mem_nil⟩

end Event
end AlertStatus
