import AlertStatus.Event.Basic
import AlertStatus.Proofs.Json.Rereading
import Mathlib.Data.List.Forall2

/-!
# Structures written as objects

Records, remarks and events are all written the same way: a list of names, each with a value or
none, from which an object is made of those that are present, and which is read back name by name.
So the argument is made once, for such a list. `Encoding` collects what a kind of value owes (its
document is stable, admitted by its screen, and decoded to it), and `Fits` says that a list of fields
goes with a layout.
-/

set_option autoImplicit false

namespace AlertStatus

variable {α β : Type}

/-! ## 1. Look-ups of the fields that are present -/

/-- A field looked up among those that are present is one that has a value. -/
theorem lookup_presentFields {l : List (String × Option Json)} (h : (l.map Prod.fst).Nodup)
    (k : String) : (presentFields l).lookup k = (l.lookup k).join := by
  induction l with
  | nil => rfl
  | cons e l ih =>
    obtain ⟨j, v⟩ := e
    obtain ⟨hj, hl⟩ := List.nodup_cons.mp h
    rw [List.lookup_cons]
    by_cases hk : k = j
    · rw [beq_iff_eq.mpr hk]
      cases v with
      | none =>
        have hnone : l.lookup k = none := by
          rw [List.lookup_eq_none_iff]
          intro e he
          rw [bne_iff_ne]
          intro heq
          refine hj ?_
          show j ∈ l.map Prod.fst
          rw [← hk, heq]
          exact List.mem_map_of_mem he
        show (presentFields l).lookup k = none
        rw [ih hl, hnone]
        rfl
      | some v =>
        show ((j, v) :: presentFields l).lookup k = some v
        rw [List.lookup_cons, beq_iff_eq.mpr hk]
    · rw [beq_eq_false_iff_ne.mpr hk]
      cases v with
      | none => exact ih hl
      | some v =>
        show ((j, v) :: presentFields l).lookup k = _
        rw [List.lookup_cons, beq_eq_false_iff_ne.mpr hk]
        exact ih hl

theorem mem_names_presentFields {l : List (String × Option Json)} {e : String × Json}
    (h : e ∈ presentFields l) : e.1 ∈ l.map Prod.fst := by
  obtain ⟨⟨j, v⟩, hm, hv⟩ := List.mem_filterMap.mp h
  obtain ⟨w, -, rfl⟩ := Option.map_eq_some_iff.mp hv
  exact List.mem_map_of_mem hm

theorem nodup_presentFields {l : List (String × Option Json)} (h : (l.map Prod.fst).Nodup) :
    ((presentFields l).map Prod.fst).Nodup := by
  induction l with
  | nil => exact List.nodup_nil
  | cons e l ih =>
    obtain ⟨j, v⟩ := e
    obtain ⟨hj, hl⟩ := List.nodup_cons.mp h
    cases v with
    | none => exact ih hl
    | some v =>
      refine List.nodup_cons.mpr ⟨fun hm => hj ?_, ih hl⟩
      obtain ⟨e, he, rfl⟩ := List.mem_map.mp hm
      exact mem_names_presentFields he

/-- **A map made of the present fields answers as the list of fields does.** The names have to differ
(`h`), or the map would have the last value of a name and the list the first. -/
theorem get?_presentFields {l : List (String × Option Json)} (h : (l.map Prod.fst).Nodup)
    (k : String) : (SortedMap.ofList (presentFields l)).get? k = (l.lookup k).join := by
  rw [SortedMap.get?_ofList (nodup_presentFields h), lookup_presentFields h]

/-! ## 2. Kinds of values -/

/-- A way to write values of a type, the screen that they pass, and the way to read them: what is
written is stable and not null, passes, and is read back. Null is left out because an optional field
that is null reads as one that is missing. -/
structure Encoding (encode : α → Json) (s : Screen) (decode : Json → Option α) : Prop where
  stable : ∀ a, (encode a).Stable
  admits : ∀ a, s.Admits (encode a)
  decodes : ∀ a, decode (encode a) = some a
  present : ∀ a, encode a ≠ .null

/-- What is written without parts is admitted by the screen that asks the reader. -/
theorem Encoding.of_scalar {encode : α → Json} {decode : Json → Option α}
    (hp : ∀ a, (encode a).Stable) (hs : ∀ a, Screen.isScalar (encode a) = true)
    (hd : ∀ a, decode (encode a) = some a) (hn : ∀ a, encode a ≠ .null) :
    Encoding encode (.scalar fun v => (decode v).isSome) decode :=
  ⟨hp, fun a => Screen.admits_scalar (hs a) (by rw [hd a]; rfl), hd, hn⟩

theorem Json.stable_int (i : Integer64) : (Json.num (.int i)).Stable :=
  ⟨trivial, congrArg Json.num (Number.reread_int i)⟩

theorem Json.instant?_ofInstant (t : Instant) : (Json.ofInstant t).instant? = some t :=
  Bounded.ofInt?_val t

theorem Json.checkState?_ofCheckState (c : CheckState) :
    (Json.ofCheckState c).checkState? = some c := Bounded.ofInt?_val c

theorem Status.ofJson?_toJson (s : Status) : Status.ofJson? s.toJson = some s := by
  have hcode : (Status.toJson s).int? 0 255 = some s.code := Bounded.ofInt?_val s.code
  rw [Status.ofJson?, hcode]
  exact Status.ofCode?_code s

theorem encodingInstant : Encoding Json.ofInstant .instant Json.instant? :=
  .of_scalar (fun _ => Json.stable_int _) (fun _ => rfl) Json.instant?_ofInstant
    fun _ h => Json.noConfusion h

theorem encodingCheckState : Encoding Json.ofCheckState .checkState Json.checkState? :=
  .of_scalar (fun _ => Json.stable_int _) (fun _ => rfl) Json.checkState?_ofCheckState
    fun _ h => Json.noConfusion h

theorem encodingStatus : Encoding Status.toJson Status.screen Status.ofJson? :=
  .of_scalar (fun _ => Json.stable_int _) (fun _ => rfl) Status.ofJson?_toJson nofun

theorem encodingText : Encoding Json.str .str Json.str? :=
  .of_scalar (fun _ => ⟨trivial, rfl⟩) (fun _ => rfl) (fun _ => rfl) nofun

theorem encodingFlag : Encoding Json.bool .flag Json.bool? :=
  .of_scalar (fun _ => ⟨trivial, rfl⟩) (fun _ => rfl) (fun _ => rfl) nofun

section Kind

variable {encode : α → Json} {s : Screen} {decode : Json → Option α}

theorem mapM_decode (h : Encoding encode s decode) (l : List α) :
    (l.map encode).mapM decode = some l := by
  induction l with
  | nil => rfl
  | cons a l ih =>
    rw [List.map_cons, List.mapM_cons, h.decodes a, ih]
    rfl

theorem Encoding.injective (h : Encoding encode s decode) {a b : α} (hab : encode a = encode b) :
    a = b := by
  have hd := h.decodes a
  rw [hab, h.decodes b] at hd
  exact (Option.some.inj hd).symm

theorem Encoding.map_injective (h : Encoding encode s decode) {a b : Option α}
    (hab : a.map encode = b.map encode) : a = b :=
  Option.map_injective (fun _ _ => h.injective) hab

/-- Lists of values of a kind are again of a kind. -/
theorem Encoding.list (h : Encoding encode s decode) :
    Encoding (fun l : List α => .arr (l.map encode)) (.list s)
      (fun v => v.items?.bind fun items => items.mapM decode) where
  stable := by
    intro l
    refine Json.stable_arr fun v hv => ?_
    obtain ⟨a, -, rfl⟩ := List.mem_map.mp hv
    exact h.stable a
  admits := by
    intro l
    refine Screen.admits_list fun v hv => ?_
    obtain ⟨a, -, rfl⟩ := List.mem_map.mp hv
    exact h.admits a
  decodes := fun l => mapM_decode h l
  present := nofun

/-! ## 3. Reading one field -/

variable {f : Fields} {name : String}

theorem required_of_get? (h : Encoding encode s decode) {a : α}
    (hf : f.get? name = some (encode a)) : f.required name decode = some a := by
  rw [Fields.required, hf]
  exact h.decodes a

theorem optional_of_get? (h : Encoding encode s decode) {a : Option α}
    (hf : f.get? name = a.map encode) : f.optional name decode = some a := by
  cases a with
  | none => rw [Fields.optional, hf]; rfl
  | some a =>
    have hn := h.present a
    have hd := h.decodes a
    rw [Fields.optional, hf, Option.map_some]
    generalize encode a = v at hn hd ⊢
    cases v with
    | null => exact absurd rfl hn
    | bool _ | num _ | str _ | arr _ | obj _ => exact congrArg (Option.map some) hd

theorem withDefault_of_get? (h : Encoding encode s decode) {a default : α}
    (hf : f.get? name = some (encode a)) : f.withDefault name default decode = some a := by
  rw [Fields.withDefault, hf]
  exact h.decodes a

theorem withDefault_of_missing {default : α} (hf : f.get? name = none) :
    f.withDefault name default decode = some default := by
  rw [Fields.withDefault, hf]

end Kind

/-! ## 4. Whole structures -/

namespace Screen

/-- A value that may be missing goes with a screen: when it is there, it is stable and passes, and
it is not null. -/
def Passes (s : Screen) (value : Option Json) : Prop :=
  ∀ v, value = some v → s.Admits v ∧ v.Stable ∧ v ≠ .null

/-- The fields go with the layout, name by name: what is present passes its screen, and what has to
be there is. -/
def Fits (known : List Field) (fields : List (String × Option Json)) : Prop :=
  List.Forall₂ (fun k e => k.name = e.1 ∧ k.screen.Passes e.2 ∧
    (k.required = true → e.2.isSome = true)) known fields

section Kind

variable {encode : α → Json} {s : Screen} {decode : Json → Option α}

theorem passes_some (h : Encoding encode s decode) (a : α) : s.Passes (some (encode a)) := by
  rintro v ⟨⟩
  exact ⟨h.admits a, h.stable a, h.present a⟩

/-- What is optional is left out rather than written as null, but null would pass too. -/
theorem passes_map (h : Encoding encode s decode) (a : Option α) :
    (nullable s).Passes (a.map encode) := by
  intro v hv
  obtain ⟨b, -, rfl⟩ := Option.map_eq_some_iff.mp hv
  exact ⟨(h.admits b).nullable, h.stable b, h.present b⟩

end Kind

theorem Fits.screenOf? {known : List Field} {fields : List (String × Option Json)}
    (h : Fits known fields) {k : String} {v : Json} (hv : fields.lookup k = some (some v)) :
    ∃ s, Screen.screenOf? known k = some s ∧ s.Admits v ∧ v.Stable ∧ v ≠ .null := by
  induction h with
  | nil => cases hv
  | @cons a e known fields hae _ ih =>
    obtain ⟨hname, hadm, -⟩ := hae
    rw [List.lookup_cons] at hv
    unfold Screen.screenOf? at ih ⊢
    rw [List.find?_cons]
    by_cases hk : k = e.1
    · rw [beq_iff_eq.mpr hk] at hv
      rw [decide_eq_true (hname.trans hk.symm)]
      exact ⟨a.screen, rfl, hadm v (Option.some.inj hv)⟩
    · rw [beq_eq_false_iff_ne.mpr hk] at hv
      rw [decide_eq_false fun h => hk (h.symm.trans hname)]
      exact ih hv

theorem Fits.lookup_required {known : List Field} {fields : List (String × Option Json)}
    (h : Fits known fields) (hn : (fields.map Prod.fst).Nodup) {a : Field} (ha : a ∈ known)
    (hr : a.required = true) : ∃ v, fields.lookup a.name = some (some v) := by
  induction h with
  | nil => cases ha
  | @cons b e known fields hbe hrest ih =>
    obtain ⟨hname, -, hreq⟩ := hbe
    obtain ⟨he, hn⟩ := List.nodup_cons.mp hn
    rw [List.lookup_cons]
    rcases List.mem_cons.mp ha with rfl | ha
    · obtain ⟨v, hv⟩ := Option.isSome_iff_exists.mp (hreq hr)
      rw [beq_iff_eq.mpr hname]
      exact ⟨v, congrArg some hv⟩
    · obtain ⟨v, hv⟩ := ih hn ha
      have hne : a.name ≠ e.1 := by
        intro heq
        obtain ⟨l₁, l₂, hl, -⟩ := List.lookup_eq_some_iff.mp hv
        refine he (heq ▸ ?_)
        rw [hl, List.map_append, List.map_cons]
        exact List.mem_append_right _ List.mem_cons_self
      rw [beq_eq_false_iff_ne.mpr hne]
      exact ⟨v, hv⟩

/-- **An object made of fields that fit a layout passes the screen of the layout.** What the layout
says of other names (`others`) does not matter, as there are none. -/
theorem Fits.admits {known : List Field} {fields : List (String × Option Json)}
    (h : Fits known fields) (hn : (fields.map Prod.fst).Nodup) (others : Others) :
    (object known others).Admits (Json.ofFields (SortedMap.ofList (presentFields fields))) := by
  refine admits_object ?_ ?_
  · intro k v hv
    rw [get?_presentFields hn, Option.join_eq_some_iff] at hv
    obtain ⟨s, hs, ha, -⟩ := h.screenOf? hv
    unfold AdmitsMember
    rw [hs]
    exact ha
  · intro a ha hr
    obtain ⟨v, hv⟩ := h.lookup_required hn ha hr
    refine SortedMap.contains_of_get? (v := v) ?_
    rw [get?_presentFields hn, hv]
    rfl

theorem Fits.stable {known : List Field} {fields : List (String × Option Json)}
    (h : Fits known fields) (hn : (fields.map Prod.fst).Nodup) :
    (Json.ofFields (SortedMap.ofList (presentFields fields))).Stable := by
  refine Json.stable_ofFields fun k v hv => ?_
  rw [get?_presentFields hn, Option.join_eq_some_iff] at hv
  obtain ⟨s, -, -, hp, -⟩ := h.screenOf? hv
  exact hp

end Screen

end AlertStatus
