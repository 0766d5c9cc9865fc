import AlertStatus.Proofs.Event.Schema
import AlertStatus.Proofs.Json.Soundness

/-!
# Events are read back

The known fields of an event are read back from its text whatever they hold. What its extra fields
have to be for that is said by `Event.Storable`: sound documents, no deeper than the reader goes. The
events that come from texts are so (`Event.storable_of_readText`). Extra fields are read back up to the
rounding of binary numbers (`Event.reread`).
-/

set_option autoImplicit false

namespace AlertStatus
namespace Event

variable {e : Event} {k : String} {v : Json}

/-- The extra fields can be read back from a text: they are sound documents, and an event that holds
them nests no deeper than the reader goes. The known fields need no such condition. -/
def Storable (e : Event) : Prop :=
  ∀ k v, e.extra.fields.get? k = some v → v.Sound ∧ v.depth < Json.depthLimit

/-- The event that is read for a written one. -/
def reread (e : Event) : Event := { e with extra := .of (e.toFields.map Json.reread) }

/-- A name that the engine does not know is not in the layout. -/
theorem screenOf?_of_unknown (hk : k ∉ eventFieldNames) :
    Screen.screenOf? layout k = none := by
  have hnone : layout.find? (fun f => f.name = k) = none := by
    rw [List.find?_eq_none]
    intro f hf hname
    have hmem : f.name ∈ layout.map Screen.Field.name := List.mem_map_of_mem hf
    rw [of_decide_eq_true hname] at hmem
    exact hk hmem
  rw [Screen.screenOf?, hnone]
  rfl

theorem stable_known (h : e.known k = some v) : v.Stable := by
  obtain ⟨s, -, -, hs, -⟩ := e.fits_knownFields.screenOf? (known_eq_some_iff.mp h)
  exact hs

/-- Known fields are read as they are. -/
theorem get?_reread_of_known (e : Event) (hk : k ∈ eventFieldNames) :
    (e.toFields.map Json.reread).get? k = e.known k := by
  rw [SortedMap.get?_map, get?_toFields_of_known e hk]
  cases hv : e.known k with
  | none => rfl
  | some v => exact congrArg some (stable_known hv).same

theorem get?_reread_of_unknown (e : Event) (hk : k ∉ eventFieldNames) :
    (e.toFields.map Json.reread).get? k = (e.extra.fields.get? k).map Json.reread := by
  rw [SortedMap.get?_map, get?_toFields_of_unknown e hk]

theorem sound_toJson (h : ∀ k v, e.extra.fields.get? k = some v → v.Sound) : e.toJson.Sound := by
  refine Json.sound_ofFields fun k v hv => ?_
  by_cases hk : k ∈ eventFieldNames
  · rw [get?_toFields_of_known e hk] at hv
    exact (stable_known hv).sound
  · rw [get?_toFields_of_unknown e hk] at hv
    exact h k v hv

theorem admits_toJson (h : e.Storable) : (Readable.screen Event).Admits e.toJson.reread := by
  rw [toJson, Json.reread_ofFields]
  refine Screen.admits_object ?_ ?_
  · intro k v hv
    unfold Screen.AdmitsMember
    by_cases hk : k ∈ eventFieldNames
    · rw [get?_reread_of_known e hk, known_eq_some_iff] at hv
      obtain ⟨s, hs, ha, -⟩ := e.fits_knownFields.screenOf? hv
      rw [hs]
      exact ha
    · rw [get?_reread_of_unknown e hk, Option.map_eq_some_iff] at hv
      obtain ⟨u, hu, rfl⟩ := hv
      obtain ⟨hsound, hdepth⟩ := h k u hu
      rw [screenOf?_of_unknown hk]
      refine Screen.admits_anything hsound.reread ?_
      rw [Json.depth_reread]
      exact Nat.le_sub_one_of_lt hdepth
  · intro f hf hr
    have hfree : (layout.all fun f => !f.required) = true := rfl
    have hf' := List.all_eq_true.mp hfree f hf
    rw [hr] at hf'
    exact absurd hf' Bool.false_ne_true

theorem ofJson?_toJson (e : Event) : ofJson? e.toJson.reread = some e.reread := by
  rw [ofJson?, toJson, Json.reread_ofFields, Json.fields?_ofFields]
  exact ofFields?_of_known fun k hk => e.get?_reread_of_known hk

/-- **An event is read back from its text**, when its extra fields can be. -/
theorem readText_toJson (h : e.Storable) : readText Event e.toJson.text = .ok e.reread :=
  readText_text (sound_toJson fun k v hv => (h k v hv).1) (admits_toJson h) (ofJson?_toJson e)

/-- **Only then**: a text with a deeper extra field is refused. That the extra fields are sound is
asked before (`hsound`), as reading does not tell: an object with its members out of order is read back
in order. -/
theorem storable_of_readText_toJson (hsound : ∀ k v, e.extra.fields.get? k = some v → v.Sound)
    {d : Event} (h : readText Event e.toJson.text = .ok d) : e.Storable := by
  intro k v hv
  have hk : k ∉ eventFieldNames := fun hk => by
    rw [ExtraFields.get?_of_known _ hk] at hv
    cases hv
  refine ⟨hsound k v hv, ?_⟩
  unfold readText at h
  cases hu : Screen.text (Readable.screen Event) e.toJson.text with
  | error x =>
    rw [hu] at h
    cases h
  | ok u =>
    have hfield : e.toFields.get? k = some v := (get?_toFields_of_unknown e hk).trans hv
    have hdepth := Screen.depth_le_of_text (sound_toJson hsound) hu (screenOf?_of_unknown hk) hfield
    exact Nat.lt_of_le_pred (by decide) hdepth

/-- What was read can be written and read again. -/
theorem Storable.reread (h : e.Storable) : e.reread.Storable := by
  intro k v hv
  have hread : (ExtraFields.of (e.toFields.map Json.reread)).fields.get? k = some v := hv
  rw [ExtraFields.get?_of] at hread
  split at hread
  · cases hread
  · rename_i hk
    rw [get?_reread_of_unknown e hk, Option.map_eq_some_iff] at hread
    obtain ⟨u, hu, rfl⟩ := hread
    obtain ⟨hsound, hdepth⟩ := h k u hu
    rw [Json.depth_reread]
    exact ⟨hsound.reread, hdepth⟩

/-- What is not a known field is an extra one. -/
theorem extra_of_ofFields? {f : Fields} (h : ofFields? f = some e) : e.extra = .of f :=
  (ofFields?_eq_some_iff.mp h).2

/-- **Whatever event a text gives can be written and read again.** -/
theorem storable_of_readText {t : String} (h : readText Event t = .ok e) : e.Storable := by
  unfold readText at h
  cases hv : Screen.text (Readable.screen Event) t with
  | error x =>
    rw [hv] at h
    cases h
  | ok u =>
    obtain ⟨f, rfl, hsound⟩ := Screen.sound_of_text hv
    have hread : (Readable.ofJson? (Json.ofFields f) : Option Event) = ofFields? f := by
      show (Json.ofFields f).fields?.bind ofFields? = _
      rw [Json.fields?_ofFields]
      rfl
    rw [hv, Except.bind_ok, hread] at h
    cases hf : ofFields? f with
    | none =>
      rw [hf] at h
      cases h
    | some d =>
      rw [hf] at h
      cases h
      intro k v hk
      rw [extra_of_ofFields? hf, ExtraFields.get?_of] at hk
      split at hk
      · cases hk
      · rename_i hunknown
        obtain ⟨hs, hd⟩ := hsound k v (screenOf?_of_unknown hunknown) hk
        exact ⟨hs, Nat.lt_of_le_pred (by decide) hd⟩

end Event
end AlertStatus
