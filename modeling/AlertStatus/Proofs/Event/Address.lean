import AlertStatus.Proofs.Event.Merging

/-!
# Routing keys and entities

The routing key of an event and the id of its entity are joined from the same fields, one with dots and
one with slashes. When no field has a dot or a slash in it, each of the two tells its fields back. But
they do not take the same fields: an id ends in the resource whenever there is one, a key only for
events of type resource. So events of one key are of one entity exactly when they are of type resource
or name the same resource (`entityId_eq_iff_of_routingKey_eq`).
-/

set_option autoImplicit false

namespace AlertStatus

/-! ## 1. Joined texts -/

/-- **A joined text tells its parts back** when the separator is in none of them. Neither list may be
empty: nothing and the empty part alone are joined to the same text. -/
theorem intercalate_injective {c : Char} {l l' : List String} (hl : ∀ s ∈ l, c ∉ s.toList)
    (hl' : ∀ s ∈ l', c ∉ s.toList) (hne : l ≠ []) (hne' : l' ≠ [])
    (h : String.intercalate (String.singleton c) l = String.intercalate (String.singleton c) l') :
    l = l' := by
  -- Splitting at the separator is a left inverse of joining.
  have hsplit : ∀ {k : List String}, (∀ s ∈ k, c ∉ s.toList) → k ≠ [] →
      (String.intercalate (String.singleton c) k).toList.splitOn c = k.map String.toList := by
    intro k hk hkne
    rw [String.toList_intercalate, String.toList_singleton]
    refine List.splitOn_intercalate c ?_ (List.map_eq_nil_iff.not.mpr hkne)
    intro s hs
    obtain ⟨t, ht, rfl⟩ := List.mem_map.mp hs
    exact hk t ht
  have hparts : l.map String.toList = l'.map String.toList := by
    rw [← hsplit hl hne, ← hsplit hl' hne', h]
  exact List.map_injective_iff.mpr (fun _ _ => String.toList_inj.mp) hparts

namespace Event

/-! ## 2. The parts of a key and of an id -/

/-- The resource that an event names; one that names none counts as naming the empty one. -/
def namedResource (e : Event) : String := e.resource.getD ""

/-- The fields that a source is told by. -/
def sourceFields (e : Event) : List String :=
  [e.connector, e.connectorName, e.eventType, e.sourceType, e.component, e.namedResource]

/-- The parts of the routing key of an event without an explicit one. -/
def keyParts (e : Event) : List String :=
  [e.connector, e.connectorName, e.eventType, e.sourceType, e.component] ++
    if e.sourceType = "resource" then [e.namedResource] else []

/-- The parts of the id of the entity of an event. -/
def pathParts (e : Event) : List String :=
  [e.sourceType, e.connector, e.connectorName, e.component] ++
    if e.namedResource = "" then [] else [e.namedResource]

/-- An event without an explicit routing key, whose source fields have no separator in them. An
explicit key says nothing of the fields. And where a field may have a dot or a slash in it, other
fields may be joined to the same key or id. -/
structure Sourced (e : Event) : Prop where
  unkeyed : e.rk = none
  undivided : ∀ s ∈ e.sourceFields, '.' ∉ s.toList ∧ '/' ∉ s.toList

variable {e d : Event} {i j : String}

theorem routingKey_of_unkeyed (h : e.rk = none) :
    e.routingKey = String.intercalate "." e.keyParts := by
  unfold routingKey keyParts namedResource
  rw [h]
  by_cases hr : e.sourceType = "resource"
  · simp [hr, String.append_assoc]
  · simp [hr]

/-- **The id of an entity**, when there is one, joins the parts. -/
theorem entityId_eq_ok (h : e.entityId = .ok i) :
    i = "/" ++ String.intercalate "/" e.pathParts := by
  unfold entityId at h
  unfold pathParts namedResource
  by_cases hc : e.component = ""
  · rw [if_pos hc] at h
    cases h
  · rw [if_neg hc] at h
    dsimp only at h
    by_cases hn : e.resource.getD "" = ""
    · rw [if_neg (not_not.mpr hn)] at h
      split at h
      · cases h
      · cases h
        rw [if_pos hn]
        rfl
    · rw [if_pos hn] at h
      cases h
      rw [if_neg hn]
      simp [String.append_assoc]

theorem keyParts_subset (e : Event) : e.keyParts ⊆ e.sourceFields := by
  unfold keyParts sourceFields
  split <;> simp

theorem pathParts_subset (e : Event) : e.pathParts ⊆ e.sourceFields := by
  unfold pathParts sourceFields
  split <;> simp

/-! ## 3. One key, one place -/

/-- The fields that the entity of an event goes by. -/
def place (e : Event) : String × String × String × String × String :=
  (e.sourceType, e.connector, e.connectorName, e.component, e.namedResource)

theorem place_eq_iff : e.place = d.place ↔
    e.sourceType = d.sourceType ∧ e.connector = d.connector ∧ e.connectorName = d.connectorName ∧
      e.component = d.component ∧ e.namedResource = d.namedResource := by
  unfold place
  simp only [Prod.mk.injEq]

/-- The entity of an event is a matter of its place. -/
theorem entityId_of_place (h : e.place = d.place) : e.entityId = d.entityId := by
  obtain ⟨htype, hconnector, hname, hcomponent, hresource⟩ := place_eq_iff.mp h
  have hresource' : e.resource.getD "" = d.resource.getD "" := hresource
  unfold entityId
  rw [htype, hconnector, hname, hcomponent, hresource']

/-- The resource can be read off the end of a path. -/
theorem pathParts_eq_iff : e.pathParts = d.pathParts ↔ e.place = d.place := by
  rw [place_eq_iff]
  unfold pathParts
  simp only [List.cons_append, List.nil_append, List.cons.injEq]
  refine and_congr_right' (and_congr_right' (and_congr_right' (and_congr_right' ?_)))
  by_cases he : e.namedResource = "" <;> by_cases hd : d.namedResource = "" <;> simp [he, hd]

/-- **An id tells its place back.** The parts have no slash in them (`he`, `hd`), so the id is cut at
its slashes, and only the resource may be missing. -/
theorem Sourced.entityId_eq_iff (he : e.Sourced) (hd : d.Sourced) (hi : e.entityId = .ok i)
    (hj : d.entityId = .ok j) : i = j ↔ e.place = d.place := by
  rw [entityId_eq_ok hi, entityId_eq_ok hj, ← pathParts_eq_iff]
  refine ⟨fun h => ?_, fun h => by rw [h]⟩
  exact intercalate_injective (fun s hs => (he.undivided s (e.pathParts_subset hs)).2)
    (fun s hs => (hd.undivided s (d.pathParts_subset hs)).2) (List.cons_ne_nil _ _)
    (List.cons_ne_nil _ _) ((String.append_right_inj "/").mp h)

/-- **A routing key tells its parts back.** No key is explicit, and the parts have no dot in them
(`he`, `hd`), so the key is cut at its dots. -/
theorem Sourced.keyParts_eq (he : e.Sourced) (hd : d.Sourced) (h : e.routingKey = d.routingKey) :
    e.keyParts = d.keyParts := by
  rw [routingKey_of_unkeyed he.unkeyed, routingKey_of_unkeyed hd.unkeyed] at h
  exact intercalate_injective (fun s hs => (he.undivided s (e.keyParts_subset hs)).1)
    (fun s hs => (hd.undivided s (d.keyParts_subset hs)).1) (List.cons_ne_nil _ _)
    (List.cons_ne_nil _ _) h

/-- **Events of one key have one place if and only if they are of type resource or name the same
resource.** The key of an event of another type leaves its resource out, while the place has it. -/
theorem Sourced.place_eq_iff (he : e.Sourced) (hd : d.Sourced) (h : e.routingKey = d.routingKey) :
    e.place = d.place ↔ e.sourceType = "resource" ∨ e.namedResource = d.namedResource := by
  have hparts := he.keyParts_eq hd h
  unfold keyParts at hparts
  simp only [List.cons_append, List.nil_append, List.cons.injEq] at hparts
  obtain ⟨hconnector, hname, -, htype, hcomponent, hresource⟩ := hparts
  rw [Event.place_eq_iff]
  refine ⟨fun h => Or.inr h.2.2.2.2, fun h => ⟨htype, hconnector, hname, hcomponent, ?_⟩⟩
  rcases h with hr | hsame
  · rw [if_pos hr, if_pos (htype.symm.trans hr)] at hresource
    exact List.singleton_inj.mp hresource
  · exact hsame

/-! ## 4. Places of live events -/

@[simp] theorem stamped_place (e prior : Event) (now : Instant) :
    (e.stamped prior now).place = e.place := by
  rw [stamped_eq]
  rfl

/-- A field without a rule of its own is the event's or the live record's after a merge. -/
theorem known_merged_or {excluded : List String} {e prior e' : Event} {k : String}
    (h : prior.update? (e.changeOf excluded prior) = some e') (hk : k ∈ eventFieldNames)
    (hr : k ∉ ruledFields) : e'.known k = e.known k ∨ e'.known k = prior.known k := by
  rw [known_merged h hk hr]
  cases hd : (e.known k).filter fun v => k ∉ excluded && !(prior.known k).any fun w => w.same v with
  | none => exact Or.inr rfl
  | some v => exact Or.inl (Option.filter_eq_some_iff.mp hd).1.symm

/-- A merge of events of one place keeps the place. -/
theorem place_merged {excluded : List String} {e prior e' : Event}
    (h : prior.update? (e.changeOf excluded prior) = some e') (hs : e.place = prior.place) :
    e'.place = prior.place := by
  obtain ⟨htype, hconnector, hname, hcomponent, hresource⟩ := Event.place_eq_iff.mp hs
  have hfield : ∀ {k : String} (get : Event → String), (∀ x y : Event, x.known k = y.known k →
      get x = get y) → k ∈ eventFieldNames → k ∉ ruledFields → get e = get prior →
        get e' = get prior := by
    intro k get hget hk hr heq
    rcases known_merged_or h hk hr with hknown | hknown
    · exact (hget e' e hknown).trans heq
    · exact hget e' prior hknown
  have htext : ∀ {s t : String}, some (Json.str s) = some (.str t) → s = t :=
    fun h => encodingText.injective (Option.some.inj h)
  refine Event.place_eq_iff.mpr ⟨?_, ?_, ?_, ?_, ?_⟩
  · exact hfield (k := "source_type") sourceType (fun _ _ => htext) (by decide) (by decide) htype
  · exact hfield (k := "connector") connector (fun _ _ => htext) (by decide) (by decide) hconnector
  · exact hfield (k := "connector_name") connectorName (fun _ _ => htext) (by decide) (by decide)
      hname
  · exact hfield (k := "component") component (fun _ _ => htext) (by decide) (by decide) hcomponent
  · refine hfield (k := "resource") namedResource (fun x y hxy => ?_) (by decide) (by decide)
      hresource
    exact congrArg (Option.getD · "") (encodingText.map_injective hxy)

end Event
end AlertStatus
