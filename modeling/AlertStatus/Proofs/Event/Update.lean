import AlertStatus.Event.Archive
import AlertStatus.Proofs.Event.Schema
import Mathlib.Tactic.FinCases

/-!
# Partial updates of an event

A partial update is made on the document of an event and read back, which fails when a field would
have the wrong type. This file says when it does not. `patch` is what the update does to one field,
and an update whose known fields each come from some event (`Fitting`) gives an event, whose fields
are the patched ones. The updates that operators and the engine make are of that kind, so each of
them is the plain assignment that it stands for.

Any other change is settled by the schema: it succeeds when what it brings for a known field is of the
field's type (`exists_update?_iff`), and the event that it makes is the given one but for the fields that
it names (`update?_eq_some_iff`).
-/

set_option autoImplicit false

namespace AlertStatus
namespace Event

/-! ## 1. Merging fields -/

/-- What a partial update makes of the value of one field. -/
def patch (change : Fields) (k : String) (old : Option Json) : Option Json :=
  match change.get? k with
  | none => old
  | some v => if v = .null then none else some v

theorem patch_of_none {change : Fields} {k : String} (h : change.get? k = none)
    (old : Option Json) : patch change k old = old := by
  rw [patch, h]

theorem patch_of_some {change : Fields} {k : String} {v : Json} (h : change.get? k = some v)
    (old : Option Json) : patch change k old = if v = .null then none else some v := by
  rw [patch, h]

theorem get?_foldl_merge {l : List (String × Json)} (h : (l.map Prod.fst).Nodup) (f : Fields)
    (k : String) :
    (l.foldl (fun f m => if m.2 = .null then f.erase m.1 else f.insert m.1 m.2) f).get? k =
      match l.lookup k with
      | none => f.get? k
      | some v => if v = .null then none else some v := by
  induction l generalizing f with
  | nil => rfl
  | cons a l ih =>
    obtain ⟨j, v⟩ := a
    obtain ⟨hj, hl⟩ := List.nodup_cons.mp h
    rw [List.foldl_cons, ih hl, List.lookup_cons]
    by_cases hk : k = j
    · -- The names are distinct, so nothing that follows touches this field again.
      have hnone : l.lookup k = none := by
        rw [List.lookup_eq_none_iff]
        intro m hm
        rw [bne_iff_ne]
        intro heq
        refine hj ?_
        show j ∈ l.map Prod.fst
        rw [← hk, heq]
        exact List.mem_map_of_mem hm
      rw [hnone, beq_iff_eq.mpr hk]
      dsimp only
      by_cases hv : v = .null
      · rw [if_pos hv, if_pos hv, SortedMap.get?_erase, if_pos hk]
      · rw [if_neg hv, if_neg hv, SortedMap.get?_insert, if_pos hk]
    · have hkeep : (if v = .null then f.erase j else f.insert j v).get? k = f.get? k := by
        split
        · rw [SortedMap.get?_erase, if_neg hk]
        · rw [SortedMap.get?_insert, if_neg hk]
      rw [beq_eq_false_iff_ne.mpr hk]
      dsimp only
      rw [hkeep]

/-- **A merge patches every field on its own.** -/
theorem get?_mergeFields (f change : Fields) (k : String) :
    (mergeFields f change).get? k = patch change k (f.get? k) := by
  rw [mergeFields, get?_foldl_merge change.nodup_keys, SortedMap.lookup_entries]
  rfl

/-! ## 2. Updates that succeed -/

/-- Every known field that the change names is one of some event; one that is taken away is one that
some event does not have. Of other names nothing is asked, since an extra field may hold any
document. -/
def Fitting (change : Fields) : Prop :=
  ∀ k ∈ eventFieldNames, ∀ v, change.get? k = some v →
    ∃ d : Event, d.known k = if v = .null then none else some v

/-- **A fitting change gives an event**, with its known fields patched one by one. The change may fit
because of different events for different fields: each field is read by itself. -/
theorem update?_of_fitting (e : Event) {change : Fields} (h : Fitting change) :
    ∃ e', e.update? change = some e' ∧ e'.extra = .of (mergeFields e.toFields change) ∧
      ∀ k ∈ eventFieldNames, e'.known k = patch change k (e.known k) := by
  have hsource : ∀ k ∈ eventFieldNames, ∃ d : Event,
      (mergeFields e.toFields change).get? k = d.known k := by
    intro k hk
    rw [get?_mergeFields, get?_toFields_of_known e hk]
    cases hc : change.get? k with
    | none => exact ⟨e, patch_of_none hc _⟩
    | some v =>
      obtain ⟨d, hd⟩ := h k hk v hc
      exact ⟨d, (patch_of_some hc _).trans hd.symm⟩
  obtain ⟨e', hread, hextra, hknown⟩ := exists_of_known hsource
  refine ⟨e', hread, hextra, fun k hk => ?_⟩
  rw [hknown k hk, get?_mergeFields, get?_toFields_of_known e hk]

/-- An update of nothing succeeds. -/
theorem update?_of_isEmpty (e : Event) {change : Fields} (h : change.isEmpty = true) :
    e.update? change = some e := by
  have hnil : change.entries = [] := List.isEmpty_iff.mp h
  rw [update?, mergeFields, hnil]
  exact ofFields?_toFields e

/-- A change of known fields alone gives the event whose known fields are the patched ones. -/
theorem update?_of_known {e d : Event} {change : Fields} (hd : d.extra = e.extra)
    (hknown : ∀ k ∈ eventFieldNames, patch change k (e.known k) = d.known k)
    (hextra : ∀ k, k ∉ eventFieldNames → change.get? k = none) : e.update? change = some d := by
  have hx : ExtraFields.of (mergeFields e.toFields change) = d.extra := by
    refine ExtraFields.ext_get? fun k => ?_
    rw [ExtraFields.get?_of, hd]
    by_cases hk : k ∈ eventFieldNames
    · rw [if_pos hk, ExtraFields.get?_of_known _ hk]
    · rw [if_neg hk, get?_mergeFields, patch_of_none (hextra k hk), get?_toFields_of_unknown e hk]
  rw [update?, ofFields?_of_known (e := d), hx]
  intro k hk
  rw [get?_mergeFields, get?_toFields_of_known e hk, hknown k hk]

/-- An update that names known fields is the assignment `d`, when `d` has what it says under the names
and is `e` elsewhere. -/
theorem update?_ofList {e d : Event} {l : List (String × Json)} (names : List String)
    (hl : l.map Prod.fst = names) (hnodup : names.Nodup) (hsub : names ⊆ eventFieldNames)
    (hd : d.extra = e.extra)
    (hknown : ∀ k ∈ eventFieldNames, d.known k =
      match l.lookup k with
      | none => e.known k
      | some v => if v = .null then none else some v) : e.update? (.ofList l) = some d := by
  subst hl
  refine update?_of_known hd (fun k hk => ?_) fun k hk => ?_
  · rw [hknown k hk, patch, SortedMap.get?_ofList hnodup]
  · rw [SortedMap.get?_ofList hnodup, List.lookup_eq_none_iff]
    intro m hm
    rw [bne_iff_ne]
    rintro rfl
    exact hk (hsub (List.mem_map_of_mem hm))

/-! ## 3. The updates of operators and of the engine -/

section Assignments

variable (e : Event) (r : Remark) (s : Status)

theorem update?_status :
    e.update? (.ofList [("status", s.toJson)]) = some { e with status := some s } := by
  refine update?_ofList ["status"] rfl (by decide) (by decide) rfl fun k hk => ?_
  fin_cases hk <;> rfl

theorem update?_ack :
    e.update? (.ofList [("ack", r.toJson)]) = some { e with ack := some r } := by
  refine update?_ofList ["ack"] rfl (by decide) (by decide) rfl fun k hk => ?_
  fin_cases hk <;> rfl

theorem update?_removeAck : e.update? (.ofList [("ack", .null)]) = some { e with ack := none } := by
  refine update?_ofList ["ack"] rfl (by decide) (by decide) rfl fun k hk => ?_
  fin_cases hk <;> rfl

theorem update?_cancel :
    e.update? (.ofList [("cancel", r.toJson), ("status", s.toJson)]) =
      some { e with cancel := some r, status := some s } := by
  refine update?_ofList ["cancel", "status"] rfl (by decide) (by decide) rfl fun k hk => ?_
  fin_cases hk <;> rfl

theorem update?_uncancel :
    e.update? (.ofList [("cancel", .null), ("status", s.toJson)]) =
      some { e with cancel := none, status := some s } := by
  refine update?_ofList ["cancel", "status"] rfl (by decide) (by decide) rfl fun k hk => ?_
  fin_cases hk <;> rfl

end Assignments

end Event

/-! ## 4. Field by field -/

namespace KnownField

variable {F : KnownField} {change : Fields} {e : Event}

/-- What an event has in the field after a partial update: what it had if the change does not name the
field, nothing or the default if the change takes it away, and else the value that is read. -/
def updated? (F : KnownField) (change : Fields) (e : Event) : Option F.Value :=
  match change.get? F.name with
  | none => some (F.get e)
  | some v => if v = .null then some F.missing else F.read? v

/-- What the change says of the field, if it is not null, is a value of the field's type. -/
def Takes (F : KnownField) (change : Fields) : Prop :=
  ∀ v, change.get? F.name = some v → v ≠ .null → (F.read? v).isSome = true

instance (F : KnownField) (change : Fields) : Decidable (F.Takes change) :=
  match h : change.get? F.name with
  | none => isTrue fun _ hv => nomatch h.symm.trans hv
  | some v =>
    decidable_of_iff (v ≠ .null → (F.read? v).isSome = true)
      ⟨fun hv _ hw => Option.some.inj (h.symm.trans hw) ▸ hv, fun hF => hF v h⟩

theorem isSome_updated?_iff : (F.updated? change e).isSome = true ↔ F.Takes change := by
  unfold updated? Takes
  cases change.get? F.name with
  | none => exact ⟨fun _ _ h => (nomatch h), fun _ => rfl⟩
  | some v =>
    dsimp only
    by_cases hv : v = .null
    · rw [if_pos hv]
      refine ⟨fun _ w hw hne => absurd ?_ hne, fun _ => rfl⟩
      exact (Option.some.inj hw).symm.trans hv
    · rw [if_neg hv]
      refine ⟨fun h w hw _ => ?_, fun h => h v rfl hv⟩
      rw [← Option.some.inj hw]
      exact h

end KnownField

namespace Event

variable {F : KnownField} {change : Fields} {e d : Event}

/-- What an event holds is read from the patched document where the change does not name it. -/
theorem lookup?_mergeFields (e : Event) (change : Fields) (hF : F ∈ schema) :
    F.lookup? (mergeFields e.toFields change) = F.updated? change e := by
  have hheld : F.lookup? e.toFields = some (F.get e) :=
    (ofFields?_eq_some_iff.mp (ofFields?_toFields e)).1 F hF
  unfold KnownField.lookup? at hheld ⊢
  unfold KnownField.updated?
  rw [get?_mergeFields]
  cases hc : change.get? F.name with
  | none =>
    rw [patch_of_none hc]
    exact hheld
  | some v =>
    rw [patch_of_some hc]
    by_cases hv : v = .null
    · rw [if_pos hv]
      exact (if_pos hv).symm
    · rw [if_neg hv]
      exact (if_neg hv).symm

/-- The event `d` is `e` with the change made in it field by field, on the known fields by their types and
on the others as it stands. -/
structure Patched (change : Fields) (e d : Event) : Prop where
  known : ∀ F ∈ schema, F.updated? change e = some (F.get d)
  extra : ∀ k, k ∉ eventFieldNames →
    d.extra.fields.get? k = patch change k (e.extra.fields.get? k)

/-- What the patched event has beside the known fields comes from the change or from the event. -/
theorem Patched.extra_cases (hd : Patched change e d) {k : String} {v : Json}
    (hv : d.extra.fields.get? k = some v) :
    k ∉ eventFieldNames ∧ (change.get? k = some v ∨ e.extra.fields.get? k = some v) := by
  have hk : k ∉ eventFieldNames := fun hk => by
    rw [ExtraFields.get?_of_known _ hk] at hv
    cases hv
  refine ⟨hk, ?_⟩
  rw [hd.extra k hk] at hv
  cases hc : change.get? k with
  | none =>
    rw [patch_of_none hc] at hv
    exact Or.inr hv
  | some w =>
    rw [patch_of_some hc] at hv
    split at hv
    · cases hv
    · exact Or.inl hv

/-- **A partial update is made field by field.** -/
theorem update?_eq_some_iff : e.update? change = some d ↔ Patched change e d := by
  have hextra (k : String) (hk : k ∉ eventFieldNames) :
      (ExtraFields.of (mergeFields e.toFields change)).fields.get? k =
        patch change k (e.extra.fields.get? k) := by
    rw [ExtraFields.get?_of, if_neg hk, get?_mergeFields, get?_toFields_of_unknown e hk]
  rw [update?, ofFields?_eq_some_iff]
  constructor
  · rintro ⟨hknown, hx⟩
    refine ⟨fun F hF => ?_, fun k hk => ?_⟩
    · rw [← lookup?_mergeFields e change hF]
      exact hknown F hF
    · rw [hx, hextra k hk]
  · intro h
    refine ⟨fun F hF => ?_, ExtraFields.ext_get? fun k => ?_⟩
    · rw [lookup?_mergeFields e change hF]
      exact h.known F hF
    · by_cases hk : k ∈ eventFieldNames
      · rw [ExtraFields.get?_of_known _ hk, ExtraFields.get?_of_known _ hk]
      · rw [h.extra k hk, hextra k hk]

/-- **A partial update succeeds when what it brings for known fields is of their types**, whatever the
event. -/
theorem exists_update?_iff : (∃ d, e.update? change = some d) ↔ ∀ F ∈ schema, F.Takes change := by
  rw [update?, exists_ofFields?_iff]
  refine forall₂_congr fun F hF => ?_
  rw [lookup?_mergeFields e change hF, KnownField.isSome_updated?_iff]

end Event
end AlertStatus
