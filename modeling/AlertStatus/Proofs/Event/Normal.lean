import AlertStatus.Proofs.Event.Document
import AlertStatus.Proofs.Event.Update

/-!
# The normal form of an event's document

Many documents are read as one event, and the event is written as one of them. That one is found from any
of the others without reading it (`Event.normalForm`): missing texts and states are filled in, optional
fields that are null are left out, a remark becomes an object of what a remark holds, and everything
else stays as it is. So what a document loses when it is read and written again is what its normal form
leaves out, and an event that is written and read again loses nothing.
-/

set_option autoImplicit false

namespace AlertStatus

/-! ## 1. The normal form -/

/-- Puts a value at `k`, or takes away what is there. -/
def SortedMap.put {α : Type} (m : SortedMap α) (k : String) : Option α → SortedMap α
  | none => m.erase k
  | some v => m.insert k v

/-- What is there and not null. -/
def Json.present? (o : Option Json) : Option Json := o.filter fun v => v ≠ .null

namespace Remark

/-- The member of a remark's document that an object has under `name` and a list at the place `i`. -/
def member? (v : Json) (i : Nat) (name : String) : Option Json :=
  match v with
  | .arr items => items[i]?
  | v => v.fields?.bind fun f => f.get? name

/-- The object of what a remark holds. -/
def normalForm (v : Json) : Json :=
  .object <| presentFields
    [("author", member? v 0 "author"),
     ("comment", Json.present? (member? v 1 "comment")),
     ("timestamp", member? v 2 "timestamp")]

end Remark

namespace Event

/-- What is written for a known field that was missing. The other known fields are optional. -/
def defaults : List (String × Json) :=
  [("connector", .str ""),
   ("connector_name", .str ""),
   ("event_type", .str ""),
   ("source_type", .str ""),
   ("component", .str ""),
   ("state", .ofCheckState .ok),
   ("state_type", .ofCheckState (CheckState.ok.nearest 1))]

/-- What is written for the known field `k` when `o` was read for it. -/
def normalMember (k : String) (o : Option Json) : Option Json :=
  match defaults.lookup k with
  | some d => some (o.getD d)
  | none =>
    if k ∈ ["ack", "cancel"] then (Json.present? o).map Remark.normalForm else Json.present? o

/-- The fields with each known one as it is written, and the others as they are. -/
def normalForm (f : Fields) : Fields :=
  eventFieldNames.foldl (fun g k => g.put k (normalMember k (f.get? k))) f

end Event

namespace SortedMap

variable {α : Type}

theorem get?_put (m : SortedMap α) (k j : String) (o : Option α) :
    (m.put k o).get? j = if j = k then o else m.get? j := by
  cases o with
  | none => exact get?_erase m k j
  | some v => exact get?_insert m k j v

/-- Putting at each of the names what does not depend on the map. -/
theorem get?_foldl_put (names : List String) (o : String → Option α) (m : SortedMap α) (j : String) :
    (names.foldl (fun m k => m.put k (o k)) m).get? j = if j ∈ names then o j else m.get? j := by
  induction names generalizing m with
  | nil => rfl
  | cons k names ih =>
    rw [List.foldl_cons, ih, get?_put]
    by_cases hj : j ∈ names
    · rw [if_pos hj, if_pos (List.mem_cons_of_mem _ hj)]
    · by_cases hk : j = k
      · rw [if_neg hj, if_pos hk, if_pos (hk ▸ List.mem_cons_self), hk]
      · rw [if_neg hj, if_neg hk, if_neg fun h => (List.mem_cons.mp h).elim hk hj]

end SortedMap

theorem Event.get?_normalForm (f : Fields) (k : String) :
    (normalForm f).get? k =
      if k ∈ eventFieldNames then normalMember k (f.get? k) else f.get? k :=
  SortedMap.get?_foldl_put eventFieldNames (fun k => normalMember k (f.get? k)) f k

/-! ## 2. What was read is what is written -/

/-- What is read from `v` is written as `form v`. For a type with one document for each value `form` is
the identity; a remark may be read from a list and is written as an object. -/
def WrittenAs {α : Type} (encode : α → Json) (decode : Json → Option α) (form : Json → Json) : Prop :=
  ∀ v a, decode v = some a → encode a = form v

/-- A whole number that was read from `v` is written as `v`. -/
theorem Json.num_of_int? {lo hi : Int} {v : Json} {b : Bounded lo hi} (h : v.int? lo hi = some b)
    (hlo : -9223372036854775808 ≤ b.val) (hhi : b.val ≤ 18446744073709551615) :
    .num (.int ⟨b.val, hlo, hhi⟩) = v := by
  unfold int? at h
  split at h
  · unfold Bounded.ofInt? at h
    split at h
    · cases h
      rfl
    · cases h
  · cases h

theorem writtenAs_text : WrittenAs Json.str Json.str? id := by
  intro v a h
  cases v with
  | str s => exact congrArg Json.str (Option.some.inj h).symm
  | null | bool _ | num _ | arr _ | obj _ => cases h

theorem writtenAs_flag : WrittenAs Json.bool Json.bool? id := by
  intro v a h
  cases v with
  | bool b => exact congrArg Json.bool (Option.some.inj h).symm
  | null | str _ | num _ | arr _ | obj _ => cases h

theorem writtenAs_instant : WrittenAs Json.ofInstant Json.instant? id :=
  fun _ _ h => Json.num_of_int? h _ _

theorem writtenAs_checkState : WrittenAs Json.ofCheckState Json.checkState? id :=
  fun _ _ h => Json.num_of_int? h _ _

theorem Status.code_of_ofCode? {c : Code} {s : Status} (h : ofCode? c = some s) : s.code = c := by
  have hfound := List.find?_some h
  exact of_decide_eq_true hfound

theorem writtenAs_status : WrittenAs Status.toJson Status.ofJson? id := by
  intro v s h
  obtain ⟨c, hc, hs⟩ := Option.bind_eq_some_iff.mp h
  rw [← Status.code_of_ofCode? hs] at hc
  exact Json.num_of_int? hc _ _

section Fields

variable {α : Type} {encode : α → Json} {decode : Json → Option α} {form : Json → Json} {f : Fields}
  {name : String}

theorem WrittenAs.required (hw : WrittenAs encode decode id) {a : α}
    (h : f.required name decode = some a) : some (encode a) = f.get? name := by
  obtain ⟨v, hv, ha⟩ := Option.bind_eq_some_iff.mp h
  rw [hv, hw v a ha]
  rfl

/-- An optional field that is null reads as one that is missing. -/
theorem WrittenAs.optional (hw : WrittenAs encode decode form) {a : Option α}
    (h : f.optional name decode = some a) :
    a.map encode = (Json.present? (f.get? name)).map form := by
  unfold Fields.optional at h
  split at h
  · rename_i hv
    rw [hv, ← Option.some.inj h]
    rfl
  · rename_i hv
    rw [hv, ← Option.some.inj h]
    rfl
  · rename_i v hnull hv
    obtain ⟨b, hb, rfl⟩ := Option.map_eq_some_iff.mp h
    have hpresent : Json.present? (some v) = some v :=
      Option.filter_some_pos (decide_eq_true hnull)
    rw [hv, hpresent, Option.map_some, Option.map_some, hw v b hb]

theorem WrittenAs.optional_plain (hw : WrittenAs encode decode id) {a : Option α}
    (h : f.optional name decode = some a) : a.map encode = Json.present? (f.get? name) := by
  rw [hw.optional h, Option.map_id, id]

theorem WrittenAs.withDefault (hw : WrittenAs encode decode id) {a default : α}
    (h : f.withDefault name default decode = some a) :
    some (encode a) = some ((f.get? name).getD (encode default)) := by
  unfold Fields.withDefault at h
  cases hv : f.get? name with
  | none =>
    rw [hv] at h
    rw [Option.some.inj h]
    rfl
  | some v =>
    rw [hv] at h
    exact congrArg some (hw v a h)

end Fields

/-! ## 3. Remarks -/

/-- The items of a list stand under the names in order. -/
theorem lookup_zip {α : Type} {names : List String} (hn : names.Nodup) {i : Nat} {name : String}
    (hi : names[i]? = some name) (items : List α) : (names.zip items).lookup name = items[i]? := by
  induction names generalizing i items with
  | nil => cases hi
  | cons k names ih =>
    obtain ⟨hk, hn⟩ := List.nodup_cons.mp hn
    cases items with
    | nil => rfl
    | cons a items =>
      rw [List.zip_cons_cons, List.lookup_cons]
      cases i with
      | zero =>
        cases hi
        rw [beq_self_eq_true]
        rfl
      | succ i =>
        have hne : name ≠ k := by
          rintro rfl
          exact hk (List.mem_of_getElem? hi)
        rw [beq_eq_false_iff_ne.mpr hne]
        exact ih hn hi items

theorem sublist_zip {α : Type} (names : List String) (items : List α) :
    ((names.zip items).map Prod.fst).Sublist names := by
  induction names generalizing items with
  | nil => exact List.Sublist.refl _
  | cons k names ih =>
    cases items with
    | nil => exact List.nil_sublist _
    | cons a items => exact (ih items).cons_cons k

namespace Remark

/-- The fields of a remark are found under their names, or at their places. -/
theorem get?_of_structureFields? {v : Json} {g : Fields}
    (h : v.structureFields? (layout.map Screen.Field.name) = some g) {i : Nat} {name : String}
    (hi : (layout.map Screen.Field.name)[i]? = some name) : g.get? name = member? v i name := by
  have hn : (layout.map Screen.Field.name).Nodup := by decide
  cases v with
  | arr items =>
    change (if _ then some (SortedMap.ofList _) else none) = some g at h
    split at h
    · rw [← Option.some.inj h, SortedMap.get?_ofList (hn.sublist (sublist_zip _ items)),
        lookup_zip hn hi]
      rfl
    · cases h
  | obj ms =>
    cases h
    rfl
  | null | bool _ | num _ | str _ => cases h

end Remark

theorem writtenAs_remark : WrittenAs Remark.toJson Remark.ofJson? Remark.normalForm := by
  intro v r h
  unfold Remark.ofJson? at h
  obtain ⟨g, hg, h⟩ := Option.bind_eq_some_iff.mp h
  obtain ⟨author, hauthor, h⟩ := Option.bind_eq_some_iff.mp h
  obtain ⟨comment, hcomment, h⟩ := Option.bind_eq_some_iff.mp h
  obtain ⟨timestamp, htimestamp, h⟩ := Option.bind_eq_some_iff.mp h
  cases h
  have hget : ∀ i k, (Remark.layout.map Screen.Field.name)[i]? = some k →
      g.get? k = Remark.member? v i k := fun _ _ => Remark.get?_of_structureFields? hg
  rw [Remark.toJson, Remark.normalForm, ← hget 0 "author" rfl, ← hget 1 "comment" rfl,
    ← hget 2 "timestamp" rfl, ← writtenAs_text.required hauthor,
    ← writtenAs_text.optional_plain hcomment, ← writtenAs_instant.required htimestamp]

/-! ## 4. Events -/

namespace Event

/-- **Under each known name an event holds what the normal form says.** -/
theorem known_of_ofFields? {f : Fields} {e : Event} (h : ofFields? f = some e) :
    ∀ k ∈ eventFieldNames, e.known k = normalMember k (f.get? k) := by
  obtain ⟨hfields, -⟩ := ofFields?_eq_some_iff.mp h
  simp only [schema, List.forall_mem_cons, KnownField.lookup?_optional,
    KnownField.lookup?_withDefault] at hfields
  obtain ⟨hrk, hconnector, hconnectorName, heventType, hsourceType, hcomponent, hresource, hstate,
    hstateType, htimestamp, houtput, hlongOutput, hstatus, hpreviousState, hlastStateChange,
    hpreviousStateChange, hack, hcancel, hticket, hticketDate, hticketAuthor, hticketDeclared,
    hkeepState, hchangeStateOutput, -⟩ := hfields
  -- The schema has the known names in order, and the kind of each field says what is written for it.
  rw [← names_schema, List.forall_mem_map]
  simp only [schema, List.forall_mem_cons]
  exact ⟨writtenAs_text.optional_plain hrk, writtenAs_text.withDefault hconnector,
    writtenAs_text.withDefault hconnectorName, writtenAs_text.withDefault heventType,
    writtenAs_text.withDefault hsourceType, writtenAs_text.withDefault hcomponent,
    writtenAs_text.optional_plain hresource, writtenAs_checkState.withDefault hstate,
    writtenAs_checkState.withDefault hstateType, writtenAs_instant.optional_plain htimestamp,
    writtenAs_text.optional_plain houtput, writtenAs_text.optional_plain hlongOutput,
    writtenAs_status.optional_plain hstatus, writtenAs_checkState.optional_plain hpreviousState,
    writtenAs_instant.optional_plain hlastStateChange,
    writtenAs_instant.optional_plain hpreviousStateChange, writtenAs_remark.optional hack,
    writtenAs_remark.optional hcancel, writtenAs_text.optional_plain hticket,
    writtenAs_instant.optional_plain hticketDate, writtenAs_text.optional_plain hticketAuthor,
    writtenAs_instant.optional_plain hticketDeclared, writtenAs_flag.optional_plain hkeepState,
    writtenAs_text.optional_plain hchangeStateOutput, fun k hk => absurd hk List.not_mem_nil⟩

/-- **A document that is read as an event is written in normal form.** Under each name the two agree,
and that is all there is to a document. -/
theorem toFields_of_ofFields? {f : Fields} {e : Event} (h : ofFields? f = some e) :
    e.toFields = normalForm f := by
  refine SortedMap.ext_get? fun k => ?_
  rw [get?_normalForm]
  by_cases hk : k ∈ eventFieldNames
  · rw [if_pos hk, get?_toFields_of_known e hk, known_of_ofFields? h k hk]
  · rw [if_neg hk, get?_toFields_of_unknown e hk, extra_of_ofFields? h, ExtraFields.get?_of, if_neg hk]

/-- **Documents of events round-trip**: a written event is read back as it was, and a document that is
read and written again is the same up to its normal form.

The first part holds of every event, also of one that could not be read back from a text, since nothing
is rounded on the way. The second asks that the document can be read as an event at all. -/
theorem document_roundtrip :
    (∀ e : Event, ofJson? e.toJson = some e) ∧
      ∀ (f : Fields) (e : Event), ofJson? (.ofFields f) = some e → e.toJson = .ofFields (normalForm f) := by
  refine ⟨fun e => ?_, fun f e h => ?_⟩
  · rw [ofJson?, toJson, Json.fields?_ofFields]
    exact ofFields?_toFields e
  · rw [ofJson?, Json.fields?_ofFields] at h
    rw [toJson, toFields_of_ofFields? h]

/-- When somebody acknowledged the event of `handwritten`. -/
def acknowledgedAt : Instant := ⟨1700000000, by decide, by decide⟩

/-- A document with a remark in a list, an optional field that is null, and two unknown fields. -/
def handwritten : Fields := SortedMap.ofList
  [("ack", .arr [.str "ops", .null, .ofInstant acknowledgedAt]),
   ("component", .str "db1"),
   ("note", .null),
   ("output", .null),
   ("state", .ofCheckState (CheckState.ok.nearest 2)),
   ("zone", .str "east")]

/-- It comes back with the remark as an object, the defaults, and without the field that was null. -/
theorem document_roundtrip_handwritten :
    ∃ e, ofJson? (.ofFields handwritten) = some e ∧ ofJson? e.toJson = some e ∧
      e.toJson = .ofFields (normalForm handwritten) ∧
      (normalForm handwritten).entries =
        [("ack", .object [("author", .str "ops"), ("timestamp", .ofInstant acknowledgedAt)]),
         ("component", .str "db1"),
         ("connector", .str ""),
         ("connector_name", .str ""),
         ("event_type", .str ""),
         ("note", .null),
         ("source_type", .str ""),
         ("state", .ofCheckState (CheckState.ok.nearest 2)),
         ("state_type", .ofCheckState (CheckState.ok.nearest 1)),
         ("zone", .str "east")] := by
  have hread : (ofJson? (.ofFields handwritten)).isSome = true := by decide +kernel
  obtain ⟨e, he⟩ := Option.isSome_iff_exists.mp hread
  exact ⟨e, he, document_roundtrip.1 e, document_roundtrip.2 handwritten e he, by decide +kernel⟩

end Event
end AlertStatus
