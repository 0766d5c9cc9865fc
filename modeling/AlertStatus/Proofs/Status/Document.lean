import AlertStatus.Proofs.Json.Structures
import AlertStatus.Status.Basic

/-!
# Status records are read back

The document of a record holds all of it, so a store that keeps texts gives back the record that was
put there. No record is excepted: statuses, states and times are whole numbers, and a list of
oscillations that is left out reads as an empty one.
-/

set_option autoImplicit false

namespace AlertStatus
namespace StatusRecord

/-- The fields of a record with their values. -/
def fields (r : StatusRecord) : List (String × Option Json) :=
  [("value", some r.value.toJson),
   ("state", some (.ofCheckState r.state)),
   ("timestamp", some (.ofInstant r.timestamp)),
   ("last_state_change", some (.ofInstant r.lastStateChange)),
   ("pending_time", r.pendingTime.map .ofInstant),
   ("stealthy_time", r.stealthyTime.map .ofInstant),
   ("flapping_times",
    if r.flappingTimes = [] then none else some (.arr (r.flappingTimes.map .ofInstant))),
   ("routing_key", r.routingKey.map .str)]

theorem nodup_fields (r : StatusRecord) : (r.fields.map Prod.fst).Nodup := by
  show ["value", "state", "timestamp", "last_state_change", "pending_time", "stealthy_time",
    "flapping_times", "routing_key"].Nodup
  decide

theorem get?_toFields (r : StatusRecord) (k : String) :
    r.toFields.get? k = (r.fields.lookup k).join := get?_presentFields r.nodup_fields k

theorem passes_flappingTimes (l : List Instant) :
    (Screen.list .instant).Passes (if l = [] then none else some (.arr (l.map .ofInstant))) := by
  intro v hv
  split at hv
  · cases hv
  · exact Screen.passes_some encodingInstant.list l v hv

theorem fits_fields (r : StatusRecord) : Screen.Fits layout r.fields :=
  .cons ⟨rfl, Screen.passes_some encodingStatus _, fun _ => rfl⟩ <|
  .cons ⟨rfl, Screen.passes_some encodingCheckState _, fun _ => rfl⟩ <|
  .cons ⟨rfl, Screen.passes_some encodingInstant _, fun _ => rfl⟩ <|
  .cons ⟨rfl, Screen.passes_some encodingInstant _, fun _ => rfl⟩ <|
  .cons ⟨rfl, Screen.passes_map encodingInstant _, nofun⟩ <|
  .cons ⟨rfl, Screen.passes_map encodingInstant _, nofun⟩ <|
  .cons ⟨rfl, passes_flappingTimes _, nofun⟩ <|
  .cons ⟨rfl, Screen.passes_map encodingText _, nofun⟩ .nil

/-- **The fields of a record decode to it.** -/
theorem ofFields?_toFields (r : StatusRecord) : ofFields? r.toFields = some r := by
  have hflaps : r.toFields.withDefault "flapping_times" []
      (fun v => v.items?.bind fun items => items.mapM Json.instant?) = some r.flappingTimes := by
    have hget : r.toFields.get? "flapping_times" =
        if r.flappingTimes = [] then none else some (.arr (r.flappingTimes.map .ofInstant)) :=
      get?_toFields r _
    by_cases hf : r.flappingTimes = []
    · rw [if_pos hf] at hget
      rw [withDefault_of_missing hget, hf]
    · rw [if_neg hf] at hget
      exact withDefault_of_get? encodingInstant.list hget
  rw [ofFields?, required_of_get? encodingStatus (get?_toFields r "value"),
    required_of_get? encodingCheckState (get?_toFields r "state"),
    required_of_get? encodingInstant (get?_toFields r "timestamp"),
    required_of_get? encodingInstant (get?_toFields r "last_state_change"),
    optional_of_get? encodingInstant (get?_toFields r "pending_time"),
    optional_of_get? encodingInstant (get?_toFields r "stealthy_time"), hflaps,
    optional_of_get? encodingText (get?_toFields r "routing_key")]
  rfl

theorem ofJson?_toJson (r : StatusRecord) : ofJson? r.toJson = some r := by
  have hf : r.toJson.structureFields? (layout.map Screen.Field.name) = some r.toFields :=
    Json.fields?_ofFields r.toFields
  rw [ofJson?, hf]
  exact ofFields?_toFields r

/-- **A record is read back from its text.** -/
theorem readText_toJson (r : StatusRecord) : readText StatusRecord r.toJson.text = .ok r :=
  readText_text_of_stable (r.fits_fields.stable r.nodup_fields)
    (Screen.admits_structure (r.fits_fields.admits r.nodup_fields .skip)) (ofJson?_toJson r)

end StatusRecord
end AlertStatus
