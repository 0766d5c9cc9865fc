import AlertStatus.Json.Reading
import AlertStatus.Proofs.Data.Maps
import AlertStatus.Proofs.Json.Lexing

/-!
# Written documents are read back

The tokens of a document build its draft, and the screens let the draft through when the values in it
are of the right kind. So for a typed value two facts are left to show, and `readText_text` asks for
just those: its screen accepts the draft of the document that is read, and this decodes to it. Where
no binary number occurs, that document is the written one (`Json.Stable`).

Members are the only place where reading does more than follow the text: a known name may occur once,
and the fields come out sorted. Both are settled by the order of the members, which a sound document
has.
-/

set_option autoImplicit false

namespace AlertStatus

theorem Except.bind_ok {ε α β : Type} (a : α) (f : α → Except ε β) : (Except.ok a >>= f) = f a := rfl

namespace Draft

/-! ## 1. The machine builds the draft -/

namespace Machine

theorem place_list (v : Draft) (items : List Draft) (next : ListNext) (rest : List Frame) :
    place v (.list items next :: rest) = .reading (.list (v :: items) .commaOrEnd :: rest) := rfl

theorem takesValue_list {next : ListNext} (h : next ≠ .commaOrEnd) (items : List Draft)
    (rest : List Frame) : takesValue (.list items next :: rest) = true := by
  cases next with
  | itemOrEnd | item => rfl
  | commaOrEnd => exact absurd rfl h

theorem scalar_of_takesValue {stack : List Frame} (h : takesValue stack = true) (v : Draft) :
    scalar v stack = place v stack := if_pos h

/-- A text where a value may stand is a value, and not the name of a member. -/
theorem step_str {stack : List Frame} (h : takesValue stack = true) (s : Option String) :
    step (.reading stack) (.str s) = place (.str s) stack := by
  match stack with
  | [] => rfl
  | .list items next :: rest => exact scalar_of_takesValue h _
  | .object members (.value name) :: rest => rfl
  | .object members .nameOrEnd :: rest => exact Bool.noConfusion h
  | .object members .name :: rest => exact Bool.noConfusion h
  | .object members (.colon name) :: rest => exact Bool.noConfusion h
  | .object members .commaOrEnd :: rest => exact Bool.noConfusion h

theorem step_openList {stack : List Frame} (h : takesValue stack = true) :
    step (.reading stack) .openList = .reading (.list [] .itemOrEnd :: stack) := if_pos h

theorem step_openObject {stack : List Frame} (h : takesValue stack = true) :
    step (.reading stack) .openObject = .reading (.object [] .nameOrEnd :: stack) := if_pos h

mutual

/-- **Where a value may stand, the tokens of a document put its draft.** What the open containers have
gathered before is left open (`stack`); it is asked only that the innermost one waits for a value. -/
theorem foldl_tokens : ∀ (v : Json) {stack : List Frame}, takesValue stack = true →
    v.tokens.foldl step (.reading stack) = place (ofJson v) stack
  | .null, _, h => scalar_of_takesValue h .null
  | .bool b, _, h => scalar_of_takesValue h (.bool b)
  | .num n, _, h => scalar_of_takesValue h (.num (some n))
  | .str s, _, h => step_str h (some s)
  | .arr items, stack, h => by
    rw [Json.tokens, List.foldl_cons, step_openList h, List.foldl_append, ofJson]
    cases items with
    | nil => rfl
    | cons v vs =>
      rw [foldl_itemTokens (v :: vs) (List.cons_ne_nil _ _) [] (by decide) stack, List.append_nil]
      show place (.arr (ofItems (v :: vs)).reverse.reverse true) stack = _
      rw [List.reverse_reverse]
  | .obj members, stack, h => by
    rw [Json.tokens, List.foldl_cons, step_openObject h, List.foldl_append, ofJson]
    cases members with
    | nil => rfl
    | cons m ms =>
      rw [foldl_memberTokens (m :: ms) (List.cons_ne_nil _ _) [] (Or.inl rfl) stack, List.append_nil]
      show place (.obj (ofMembers (m :: ms)).reverse.reverse true) stack = _
      rw [List.reverse_reverse]

theorem foldl_itemTokens : ∀ (vs : List Json), vs ≠ [] → ∀ (items : List Draft) {next : ListNext},
    next ≠ .commaOrEnd → ∀ rest : List Frame,
    (Json.itemTokens vs).foldl step (.reading (.list items next :: rest)) =
      .reading (.list ((ofItems vs).reverse ++ items) .commaOrEnd :: rest)
  | [], h, _, _, _, _ => absurd rfl h
  | [v], _, items, next, hn, rest => by
    rw [Json.itemTokens, foldl_tokens v (takesValue_list hn items rest), place_list]
    rfl
  | v :: w :: vs, _, items, next, hn, rest => by
    rw [Json.itemTokens, List.foldl_append, foldl_tokens v (takesValue_list hn items rest), place_list,
      List.foldl_cons]
    · show (Json.itemTokens (w :: vs)).foldl step
        (.reading (.list (ofJson v :: items) .item :: rest)) = _
      rw [foldl_itemTokens (w :: vs) (List.cons_ne_nil _ _) (ofJson v :: items) (by decide) rest]
      simp [ofItems]
    · simp

theorem foldl_memberTokens : ∀ (ms : List (String × Json)), ms ≠ [] →
    ∀ (members : List (Option String × Draft)) {next : ObjectNext},
    next = .nameOrEnd ∨ next = .name → ∀ rest : List Frame,
    (Json.memberTokens ms).foldl step (.reading (.object members next :: rest)) =
      .reading (.object ((ofMembers ms).reverse ++ members) .commaOrEnd :: rest)
  | [], h, _, _, _, _ => absurd rfl h
  | [(k, v)], _, members, next, hn, rest => by
    rw [Json.memberTokens, List.foldl_cons, List.foldl_cons]
    have hname : step (step (.reading (.object members next :: rest)) (.str (some k))) .colon =
        .reading (.object members (.value (some k)) :: rest) := by
      rcases hn with rfl | rfl <;> rfl
    rw [hname, foldl_tokens v rfl]
    rfl
  | (k, v) :: m :: ms, _, members, next, hn, rest => by
    rw [Json.memberTokens, List.foldl_cons, List.foldl_cons, List.foldl_append]
    · have hname : step (step (.reading (.object members next :: rest)) (.str (some k))) .colon =
          .reading (.object members (.value (some k)) :: rest) := by
        rcases hn with rfl | rfl <;> rfl
      rw [hname, foldl_tokens v rfl, List.foldl_cons]
      show (Json.memberTokens (m :: ms)).foldl step
        (.reading (.object ((some k, ofJson v) :: members) .name :: rest)) = _
      rw [foldl_memberTokens (m :: ms) (List.cons_ne_nil _ _) _ (Or.inr rfl) rest]
      simp [ofMembers]
    · simp

end

end Machine

/-- **The draft of a text is the draft of the document that is read**, with nothing after it. For a
document that is not sound (`h` fails) the tokens may be others. -/
theorem ofText_text {v : Json} (h : v.Sound) : Draft.ofText v.text = ⟨ofJson v.reread, false⟩ := by
  rw [ofText, Json.text, String.toList_ofList, tokens_write h, Machine.start,
    Machine.foldl_tokens v.reread rfl]
  rfl

/-! ## 2. The draft of a document denotes it -/

mutual

theorem value?_ofJson : ∀ v : Json, v.Sound → value? (ofJson v) = some v
  | .null, _ | .bool _, _ | .str _, _ => rfl
  | .num _, _ => rfl
  | .arr items, h => by
    rw [Json.Sound] at h
    rw [ofJson, value?, values?_ofItems items h]
    rfl
  | .obj members, h => by
    rw [Json.Sound] at h
    rw [ofJson, value?, fields?_ofMembers members h.1 h.2]
    rfl

theorem values?_ofItems : ∀ vs : List Json, Json.SoundItems vs →
    values? (ofItems vs) = some vs
  | [], _ => rfl
  | v :: vs, h => by
    rw [Json.SoundItems] at h
    rw [ofItems, values?, value?_ofJson v h.1, values?_ofItems vs h.2]
    rfl

theorem fields?_ofMembers : ∀ (ms : List (String × Json)) (hs : ms.Pairwise fun a b => a.1 < b.1),
    Json.SoundMembers ms → fields? (ofMembers ms) = some ⟨ms, hs⟩
  | [], _, _ => rfl
  | (k, v) :: ms, hs, h => by
    rw [Json.SoundMembers] at h
    obtain ⟨hk, hms⟩ := List.pairwise_cons.mp hs
    rw [ofMembers, fields?, value?_ofJson v h.1, fields?_ofMembers ms hms h.2]
    -- The rest holds larger names only, so this member is new and stands first.
    have hnone : (⟨ms, hms⟩ : Fields).get? k = none :=
      SortedMap.lookupEntry_eq_none fun e he heq => String.lt_irrefl k (heq ▸ hk e he)
    have hfirst : (⟨ms, hms⟩ : Fields).insert k v = ⟨(k, v) :: ms, hs⟩ := by
      refine SortedMap.ext_get? fun j => ?_
      rw [SortedMap.get?_insert]
      rfl
    show some (if (⟨ms, hms⟩ : Fields).contains k then _ else _) = _
    rw [SortedMap.contains, hnone, if_neg (by simp), hfirst]

end

mutual

theorem depth_ofJson : ∀ v : Json, (ofJson v).depth = v.depth
  | .null | .bool _ | .num _ | .str _ => rfl
  | .arr items => by rw [ofJson, depth, Json.depth, itemsDepth_ofItems items]
  | .obj members => by rw [ofJson, depth, Json.depth, membersDepth_ofMembers members]

theorem itemsDepth_ofItems : ∀ vs : List Json, itemsDepth (ofItems vs) = Json.itemsDepth vs
  | [] => rfl
  | v :: vs => by rw [ofItems, itemsDepth, Json.itemsDepth, depth_ofJson v, itemsDepth_ofItems vs]

theorem membersDepth_ofMembers : ∀ ms : List (String × Json),
    membersDepth (ofMembers ms) = Json.membersDepth ms
  | [] => rfl
  | (_, v) :: ms => by
    rw [ofMembers, membersDepth, Json.membersDepth, depth_ofJson v, membersDepth_ofMembers ms]

end

theorem mem_ofMembers {ms : List (String × Json)} {m : String × Json} (h : m ∈ ms) :
    (some m.1, ofJson m.2) ∈ ofMembers ms := by
  induction ms with
  | nil => cases h
  | cons n ms ih =>
    rw [ofMembers]
    rcases List.mem_cons.mp h with rfl | h
    · exact List.mem_cons_self
    · exact List.mem_cons_of_mem _ (ih h)

end Draft

/-! ## 3. Screens -/

namespace Screen

/-- The screen lets the draft of a document through as that document. -/
def Admits (s : Screen) (v : Json) : Prop := s (Draft.ofJson v) = .ok v

/-- A value without parts. -/
def isScalar : Json → Bool
  | .arr _ | .obj _ => false
  | _ => true

theorem admits_scalar {accepts : Json → Bool} {v : Json} (hs : isScalar v = true)
    (ha : accepts v = true) : (scalar accepts).Admits v := by
  unfold Admits
  cases v with
  | null | bool _ | num _ | str _ => exact if_pos ha
  | arr _ | obj _ => exact Bool.noConfusion hs

theorem Admits.nullable {s : Screen} {v : Json} (h : s.Admits v) : (nullable s).Admits v := by
  unfold Admits Screen.nullable
  cases v with
  | null => rfl
  | bool _ | num _ | str _ | arr _ | obj _ => exact h

theorem mapM_ofItems {s : Screen} {vs : List Json} (h : ∀ v ∈ vs, s.Admits v) :
    (Draft.ofItems vs).mapM s = .ok vs := by
  induction vs with
  | nil => rfl
  | cons v vs ih =>
    rw [Draft.ofItems, List.mapM_cons, h v List.mem_cons_self,
      ih fun w hw => h w (List.mem_cons_of_mem _ hw)]
    rfl

theorem admits_list {s : Screen} {vs : List Json} (h : ∀ v ∈ vs, s.Admits v) :
    (list s).Admits (.arr vs) := by
  unfold Admits
  rw [Draft.ofJson, list, mapM_ofItems h]
  rfl

theorem admits_anything {limit : Nat} {v : Json} (hs : v.Sound) (hd : v.depth ≤ limit) :
    (anything limit).Admits v := by
  unfold Admits
  rw [anything, Draft.depth_ofJson, if_neg (Nat.not_lt.mpr hd), Draft.value?_ofJson v hs]

/-- What has to hold of a member so that a walk over members lets it through. -/
def AdmitsMember (known : List Field) (others : Others) (k : String) (v : Json) : Prop :=
  match screenOf? known k, others with
  | some s, _ => s.Admits v
  | none, .keep s => s.Admits v
  | none, .skip => False

/-- **A walk over members in order gathers them all.** A known name may not have been seen before,
and none was, since every name that was seen is smaller. -/
theorem members_ofMembers {known : List Field} {others : Others} {ms : List (String × Json)}
    (hs : ms.Pairwise fun a b => a.1 < b.1) (ha : ∀ m ∈ ms, AdmitsMember known others m.1 m.2)
    {seen : Fields} (hseen : ∀ m ∈ ms, seen.get? m.1 = none) :
    members known others seen (Draft.ofMembers ms) =
      .ok (ms.foldl (fun f m => f.insert m.1 m.2) seen) := by
  induction ms generalizing seen with
  | nil => rfl
  | cons m ms ih =>
    obtain ⟨k, v⟩ := m
    obtain ⟨hk, hms⟩ := List.pairwise_cons.mp hs
    have hnew : seen.contains k = false := by
      rw [SortedMap.contains, hseen (k, v) List.mem_cons_self]
      rfl
    -- The members that follow have larger names, so none of them has been seen.
    have htail : members known others (seen.insert k v) (Draft.ofMembers ms) =
        .ok (ms.foldl (fun f m => f.insert m.1 m.2) (seen.insert k v)) := by
      refine ih hms (fun m hm => ha m (List.mem_cons_of_mem _ hm)) fun m hm => ?_
      have hne : m.1 ≠ k := fun heq => String.lt_irrefl k (heq ▸ hk m hm)
      rw [SortedMap.get?_insert, if_neg hne, hseen m (List.mem_cons_of_mem _ hm)]
    have hm : AdmitsMember known others k v := ha (k, v) List.mem_cons_self
    unfold AdmitsMember at hm
    rw [Draft.ofMembers, List.foldl_cons]
    unfold members
    cases hf : screenOf? known k with
    | some s =>
      rw [hf] at hm
      have hv : s (Draft.ofJson v) = .ok v := hm
      dsimp only
      rw [hnew, if_neg Bool.false_ne_true, hv]
      exact htail
    | none =>
      rw [hf] at hm
      cases others with
      | skip => exact absurd hm id
      | keep s =>
        have hv : s (Draft.ofJson v) = .ok v := hm
        dsimp only
        rw [hv]
        exact htail

/-- **The screen of an object admits fields of the right kind.** Each field that is there passes the
screen of its name, or the one for other names (`ha`), and those that are required are there (`hr`). -/
theorem admits_object {known : List Field} {others : Others} {f : Fields}
    (ha : ∀ k v, f.get? k = some v → AdmitsMember known others k v)
    (hr : ∀ k ∈ known, k.required = true → f.contains k.name = true) :
    (object known others).Admits (Json.ofFields f) := by
  have hall : (known.all fun k => !k.required || f.contains k.name) = true := by
    rw [List.all_eq_true]
    intro k hk
    cases hreq : k.required with
    | false => rfl
    | true => rw [hr k hk hreq]; rfl
  have hwalk : members known others SortedMap.empty (Draft.ofMembers f.entries) = .ok f := by
    rw [members_ofMembers f.sorted
      (fun m hm => ha m.1 m.2 (SortedMap.get?_eq_some_iff.mpr hm)) (fun _ _ => rfl)]
    exact congrArg Except.ok (SortedMap.ofList_entries f)
  unfold Admits
  rw [Json.ofFields, Draft.ofJson, object, hwalk]
  rw [Except.bind_ok, if_neg (by decide), if_pos hall]
  rfl

theorem admits_structure {known : List Field} {f : Fields}
    (h : (object known .skip).Admits (Json.ofFields f)) :
    (structure? known).Admits (Json.ofFields f) := h

end Screen

/-! ## 4. The document that is read -/

namespace Json

mutual

theorem Sound.reread : ∀ {v : Json}, v.Sound → v.reread.Sound
  | .null, _ | .bool _, _ | .str _, _ => trivial
  | .num _, h => by
    rw [Sound] at h
    rw [Json.reread, Sound]
    exact h.value_numeral.2
  | .arr items, h => by
    rw [Sound] at h
    rw [Json.reread, Sound]
    exact SoundItems.reread h
  | .obj members, h => by
    rw [Sound] at h
    rw [Json.reread, Sound]
    refine ⟨?_, SoundMembers.reread h.2⟩
    rw [rereadMembers_eq_map, List.pairwise_map]
    exact h.1

theorem SoundItems.reread : ∀ {vs : List Json}, SoundItems vs → SoundItems (rereadItems vs)
  | [], h => h
  | v :: vs, h => by
    rw [SoundItems] at h
    rw [rereadItems, SoundItems]
    exact ⟨h.1.reread, SoundItems.reread h.2⟩

theorem SoundMembers.reread : ∀ {ms : List (String × Json)}, SoundMembers ms →
    SoundMembers (rereadMembers ms)
  | [], h => h
  | (_, v) :: ms, h => by
    rw [SoundMembers] at h
    rw [rereadMembers, SoundMembers]
    exact ⟨h.1.reread, SoundMembers.reread h.2⟩

end

mutual

theorem depth_reread : ∀ v : Json, v.reread.depth = v.depth
  | .null | .bool _ | .num _ | .str _ => rfl
  | .arr items => by rw [Json.reread, depth, depth, itemsDepth_reread items]
  | .obj members => by rw [Json.reread, depth, depth, membersDepth_reread members]

theorem itemsDepth_reread : ∀ vs : List Json, itemsDepth (rereadItems vs) = itemsDepth vs
  | [] => rfl
  | v :: vs => by rw [rereadItems, itemsDepth, itemsDepth, depth_reread v, itemsDepth_reread vs]

theorem membersDepth_reread : ∀ ms : List (String × Json),
    membersDepth (rereadMembers ms) = membersDepth ms
  | [] => rfl
  | (_, v) :: ms => by
    rw [rereadMembers, membersDepth, membersDepth, depth_reread v, membersDepth_reread ms]

end

theorem sound_ofFields {f : Fields} (h : ∀ k v, f.get? k = some v → v.Sound) :
    (Json.ofFields f).Sound := by
  have hmembers : ∀ ms : List (String × Json), (∀ m ∈ ms, m.2.Sound) → SoundMembers ms := by
    intro ms hms
    induction ms with
    | nil => trivial
    | cons m ms ih =>
      obtain ⟨k, v⟩ := m
      rw [SoundMembers]
      exact ⟨hms (k, v) List.mem_cons_self, ih fun m hm => hms m (List.mem_cons_of_mem _ hm)⟩
  rw [ofFields, Sound]
  exact ⟨f.sorted, hmembers f.entries fun m hm => h m.1 m.2 (SortedMap.get?_eq_some_iff.mpr hm)⟩

/-- Of an object the values are read, each for itself. -/
theorem reread_ofFields (f : Fields) : (ofFields f).reread = ofFields (f.map Json.reread) := by
  rw [ofFields, Json.reread, rereadMembers_eq_map]
  rfl

/-- The document is read back as it is. Documents without binary numbers are stable, and so are those
whose binary numbers the reader happens to hit. -/
structure Stable (v : Json) : Prop where
  sound : v.Sound
  same : v.reread = v

theorem stable_arr {vs : List Json} (h : ∀ v ∈ vs, v.Stable) : (Json.arr vs).Stable := by
  have hitems : SoundItems vs ∧ rereadItems vs = vs := by
    induction vs with
    | nil => exact ⟨trivial, rfl⟩
    | cons v vs ih =>
      obtain ⟨hsound, hsame⟩ := h v List.mem_cons_self
      obtain ⟨hsounds, hsames⟩ := ih fun w hw => h w (List.mem_cons_of_mem _ hw)
      rw [SoundItems, rereadItems, hsame, hsames]
      exact ⟨⟨hsound, hsounds⟩, rfl⟩
  refine ⟨?_, ?_⟩
  · rw [Sound]
    exact hitems.1
  · rw [Json.reread, hitems.2]

theorem stable_ofFields {f : Fields} (h : ∀ k v, f.get? k = some v → v.Stable) :
    (Json.ofFields f).Stable := by
  refine ⟨sound_ofFields fun k v hv => (h k v hv).sound, ?_⟩
  rw [reread_ofFields]
  congr 1
  refine SortedMap.ext_get? fun k => ?_
  rw [SortedMap.get?_map]
  cases hv : f.get? k with
  | none => rfl
  | some v => exact congrArg some (h k v hv).same

end Json

/-! ## 5. Typed values -/

/-- **A value is read from the text of a document**, when its screen admits the document that is read,
and this decodes to it. Both are asked of the document that is read (`v.reread`), which is all that a
reader of the text has. -/
theorem readText_text {α : Type} [Readable α] {v : Json} {a : α} (h : v.Sound)
    (hs : (Readable.screen α).Admits v.reread) (ha : Readable.ofJson? v.reread = some a) :
    readText α v.text = .ok a := by
  have htext : Screen.text (Readable.screen α) v.text = .ok v.reread := by
    unfold Screen.text
    rw [Draft.ofText_text h]
    dsimp only
    rw [hs]
    rfl
  unfold readText
  rw [htext, Except.bind_ok, ha]

theorem readText_text_of_stable {α : Type} [Readable α] {v : Json} {a : α} (h : v.Stable)
    (hs : (Readable.screen α).Admits v) (ha : Readable.ofJson? v = some a) :
    readText α v.text = .ok a := by
  refine readText_text h.sound ?_ ?_
  · rw [h.same]
    exact hs
  · rw [h.same]
    exact ha

/-- The fields of an object are those it was made of. -/
theorem Json.fields?_ofFields (f : Fields) : (Json.ofFields f).fields? = some f :=
  congrArg some (SortedMap.ofList_entries f)

end AlertStatus
