import AlertStatus.Proofs.Json.Rereading

/-!
# What is read is sound

Documents that come from a text need not be checked before they are written to one. The members of
their objects are in order because a `Fields` is, and their numbers are finite because a numeral
denotes nothing beyond (`Number.sound_of_value`). The second fact has to be carried from the tokens to
the drafts, and from the drafts to the documents.
-/

set_option autoImplicit false

namespace AlertStatus

/-! ## 1. Tokens -/

/-- The number of the token, if it is one, is sound. -/
def Token.Sound : Token → Prop
  | .num n => ∀ m, n = some m → m.Sound
  | _ => True

/-- The token that is being spelled, if there is one, is sound. -/
def LexerMode.Sound : LexerMode → Prop
  | .word _ t => t.Sound
  | _ => True

namespace Lexer

variable {l : Lexer} {t : Token}

/-- All tokens found so far are sound, and so is the one that is being spelled. -/
structure Sound (l : Lexer) : Prop where
  found : ∀ t ∈ l.found, t.Sound
  mode : l.mode.Sound

theorem Sound.emit (h : l.Sound) (ht : t.Sound) : (l.emit t).Sound :=
  ⟨List.forall_mem_cons.mpr ⟨ht, h.found⟩, trivial⟩

theorem Sound.fail (h : l.Sound) : l.fail.Sound :=
  ⟨List.forall_mem_cons.mpr ⟨trivial, h.found⟩, trivial⟩

/-- A change of mode keeps what was found. -/
theorem Sound.enter (h : l.Sound) {mode : LexerMode} (hm : mode.Sound) : Sound { l with mode } :=
  ⟨h.found, hm⟩

/-- A number that the pass has come to the end of is sound. -/
theorem sound_token (o : OpenNumeral) : o.token.Sound := fun _ hm => Number.sound_of_value hm

theorem sound_start : start.Sound := ⟨fun _ ht => absurd ht List.not_mem_nil, trivial⟩

theorem Sound.begin (h : l.Sound) (c : Char) : (l.begin c).Sound := by
  unfold Lexer.begin
  split
  any_goals exact h.emit trivial
  any_goals exact h.enter trivial
  split
  · exact h.enter trivial
  · exact h.fail

theorem Sound.step (h : l.Sound) (c : Char) : (l.step c).Sound := by
  have hmode := h.mode
  unfold Lexer.step
  split
  · exact h.begin c
  · rename_i rest t hword
    rw [hword] at hmode
    split
    · exact h.fail
    · split
      · split
        · exact h.emit hmode
        · exact h.enter hmode
      · exact h.fail
  · split
    · exact h.emit trivial
    split
    · exact h.enter trivial
    split
    · exact h.fail
    · exact h.enter trivial
  · split
    · exact h.enter trivial
    split
    · exact h.enter trivial
    · exact h.fail
  · split
    · exact h.fail
    split
    · exact h.enter trivial
    · exact h.enter trivial
  · rename_i n _
    split
    · exact h.enter trivial
    split
    · exact (h.emit (sound_token n)).begin c
    · exact h.fail
  · exact h

theorem Sound.foldl (h : l.Sound) (cs : List Char) : (cs.foldl Lexer.step l).Sound := by
  induction cs generalizing l with
  | nil => exact h
  | cons c cs ih => exact ih (h.step c)

theorem Sound.finish (h : l.Sound) : ∀ t ∈ l.finish, t.Sound := by
  have hreverse : ∀ {ts : List Token}, (∀ t ∈ ts, t.Sound) → ∀ t ∈ ts.reverse, t.Sound :=
    fun hts t ht => hts t (List.mem_reverse.mp ht)
  unfold Lexer.finish
  split
  · exact hreverse h.found
  · exact hreverse h.found
  · rename_i n _
    split
    · exact hreverse (h.emit (sound_token n)).found
    · exact hreverse h.fail.found
  · exact hreverse h.fail.found

end Lexer

/-- **The tokens of a text are sound**, whatever the text is. One that is no document has tokens as
well, up to the place where it fails. -/
theorem sound_tokens (text : List Char) : ∀ t ∈ tokens text, t.Sound :=
  (Lexer.sound_start.foldl text).finish

/-! ## 2. Drafts -/

namespace Draft

/-- All numbers in a draft are sound. -/
inductive Sound : Draft → Prop where
  | null : Sound .null
  | bool (b : Bool) : Sound (.bool b)
  | num {n : Option Number} (h : ∀ m, n = some m → m.Sound) : Sound (.num n)
  | str (s : Option String) : Sound (.str s)
  | arr {items : List Draft} {closed : Bool} (h : ∀ d ∈ items, Sound d) : Sound (.arr items closed)
  | obj {members : List (Option String × Draft)} {closed : Bool} (h : ∀ m ∈ members, Sound m.2) :
      Sound (.obj members closed)
  | broken : Sound .broken

namespace Frame

/-- All drafts that an open container has gathered are sound. -/
def Sound : Frame → Prop
  | .list items _ => ∀ d ∈ items, d.Sound
  | .object members _ => ∀ m ∈ members, m.2.Sound

end Frame

namespace Machine

variable {m : Machine} {stack : List Frame} {v : Draft}

/-- All drafts that the machine holds are sound. -/
def Sound : Machine → Prop
  | .reading stack => ∀ f ∈ stack, f.Sound
  | .done text => text.root.Sound

/-- A list that is closed or given up is sound, and so is an object. -/
theorem sound_items {items : List Draft} (h : ∀ d ∈ items, d.Sound) (closed : Bool) :
    (Draft.arr items.reverse closed).Sound :=
  .arr fun d hd => h d (List.mem_reverse.mp hd)

theorem sound_members {members : List (Option String × Draft)} (h : ∀ m ∈ members, m.2.Sound)
    (closed : Bool) : (Draft.obj members.reverse closed).Sound :=
  .obj fun m hm => h m (List.mem_reverse.mp hm)

theorem sound_place (hv : v.Sound) (hs : ∀ f ∈ stack, f.Sound) : (place v stack).Sound := by
  cases stack with
  | nil => exact hv
  | cons f rest =>
    obtain ⟨hf, hrest⟩ := List.forall_mem_cons.mp hs
    cases f with
    | list items next =>
      exact List.forall_mem_cons.mpr ⟨List.forall_mem_cons.mpr ⟨hv, hf⟩, hrest⟩
    | object members next =>
      cases next with
      | value name => exact List.forall_mem_cons.mpr ⟨List.forall_mem_cons.mpr ⟨hv, hf⟩, hrest⟩
      | nameOrEnd | name | colon _ | commaOrEnd => exact List.forall_mem_cons.mpr ⟨hf, hrest⟩

theorem sound_abandonFrame {inner : Draft} (hi : inner.Sound) {f : Frame} (hf : f.Sound) :
    (abandonFrame inner f).Sound := by
  cases f with
  | list items next =>
    cases next with
    | itemOrEnd | item => exact sound_items (List.forall_mem_cons.mpr ⟨hi, hf⟩) false
    | commaOrEnd => exact sound_items hf false
  | object members next =>
    cases next with
    | colon name => exact sound_members (List.forall_mem_cons.mpr ⟨Sound.broken, hf⟩) false
    | value name => exact sound_members (List.forall_mem_cons.mpr ⟨hi, hf⟩) false
    | nameOrEnd | name | commaOrEnd => exact sound_members hf false

theorem sound_abandon (hs : ∀ f ∈ stack, f.Sound) : (abandon stack).Sound := by
  have hfold : ∀ {inner : Draft}, inner.Sound → (stack.foldl abandonFrame inner).Sound := by
    induction stack with
    | nil => exact id
    | cons f rest ih =>
      intro inner hi
      obtain ⟨hf, hrest⟩ := List.forall_mem_cons.mp hs
      exact ih hrest (sound_abandonFrame hi hf)
  exact hfold Draft.Sound.broken

theorem sound_scalar (hv : v.Sound) (hs : ∀ f ∈ stack, f.Sound) : (scalar v stack).Sound := by
  unfold scalar
  split
  · exact sound_place hv hs
  · exact sound_abandon hs

/-- What an open container waits for says nothing about what it has gathered. -/
theorem sound_list {items : List Draft} {next : ListNext} (next' : ListNext)
    (hs : ∀ f ∈ .list items next :: stack, f.Sound) :
    Machine.Sound (.reading (.list items next' :: stack)) := by
  obtain ⟨hf, hrest⟩ := List.forall_mem_cons.mp hs
  exact List.forall_mem_cons.mpr ⟨hf, hrest⟩

theorem sound_object {members : List (Option String × Draft)} {next : ObjectNext} (next' : ObjectNext)
    (hs : ∀ f ∈ .object members next :: stack, f.Sound) :
    Machine.Sound (.reading (.object members next' :: stack)) := by
  obtain ⟨hf, hrest⟩ := List.forall_mem_cons.mp hs
  exact List.forall_mem_cons.mpr ⟨hf, hrest⟩

theorem Sound.step (h : m.Sound) {t : Token} (ht : t.Sound) : (m.step t).Sound := by
  cases m with
  | done text => exact h
  | reading stack =>
    have hs : ∀ f ∈ stack, f.Sound := h
    cases t with
    | null => exact sound_scalar .null hs
    | bool b => exact sound_scalar (.bool b) hs
    | num n => exact sound_scalar (.num ht) hs
    | str s =>
      unfold Machine.step
      dsimp only
      split
      · exact sound_object _ hs
      · exact sound_object _ hs
      · exact sound_scalar (.str s) hs
    | openList =>
      unfold Machine.step
      dsimp only
      split
      · exact List.forall_mem_cons.mpr ⟨fun _ hd => absurd hd List.not_mem_nil, hs⟩
      · exact sound_abandon hs
    | openObject =>
      unfold Machine.step
      dsimp only
      split
      · exact List.forall_mem_cons.mpr ⟨fun _ hm => absurd hm List.not_mem_nil, hs⟩
      · exact sound_abandon hs
    | closeList =>
      unfold Machine.step
      dsimp only
      split
      · obtain ⟨hf, hrest⟩ := List.forall_mem_cons.mp hs
        exact sound_place (sound_items hf true) hrest
      · obtain ⟨hf, hrest⟩ := List.forall_mem_cons.mp hs
        exact sound_place (sound_items hf true) hrest
      · exact sound_abandon hs
    | closeObject =>
      unfold Machine.step
      dsimp only
      split
      · obtain ⟨hf, hrest⟩ := List.forall_mem_cons.mp hs
        exact sound_place (sound_members hf true) hrest
      · obtain ⟨hf, hrest⟩ := List.forall_mem_cons.mp hs
        exact sound_place (sound_members hf true) hrest
      · exact sound_abandon hs
    | colon =>
      unfold Machine.step
      dsimp only
      split
      · exact sound_object _ hs
      · exact sound_abandon hs
    | comma =>
      unfold Machine.step
      dsimp only
      split
      · exact sound_list _ hs
      · exact sound_object _ hs
      · exact sound_abandon hs
    | broken => exact sound_abandon hs

theorem Sound.foldl (h : m.Sound) {ts : List Token} (hts : ∀ t ∈ ts, t.Sound) :
    (ts.foldl Machine.step m).Sound := by
  induction ts generalizing m with
  | nil => exact h
  | cons t ts ih =>
    obtain ⟨ht, hrest⟩ := List.forall_mem_cons.mp hts
    exact ih (h.step ht) hrest

theorem Sound.finish (h : m.Sound) : m.finish.root.Sound := by
  cases m with
  | done text => exact h
  | reading stack => exact sound_abandon h

end Machine

/-- **The draft of a text is sound.** Nothing is asked of the text: what is broken in it is a part of
the draft, and has no number in it. -/
theorem sound_ofText (text : String) : (Draft.ofText text).root.Sound :=
  (Machine.Sound.foldl (m := .start) (fun _ hf => absurd hf List.not_mem_nil)
    (sound_tokens text.toList)).finish

/-! ## 3. Documents -/

theorem depth_ofFields_le {f : Fields} {n : Nat} (h : ∀ k v, f.get? k = some v → v.depth ≤ n) :
    (Json.ofFields f).depth ≤ n + 1 := by
  have hmembers : ∀ ms : List (String × Json), (∀ m ∈ ms, m.2.depth ≤ n) →
      Json.membersDepth ms ≤ n := by
    intro ms hms
    induction ms with
    | nil => exact Nat.zero_le n
    | cons m ms ih =>
      obtain ⟨hfirst, hrest⟩ := List.forall_mem_cons.mp hms
      exact Nat.max_le.mpr ⟨hfirst, ih hrest⟩
  rw [Json.ofFields, Json.depth]
  exact Nat.succ_le_succ (hmembers f.entries fun m hm =>
    h m.1 m.2 (SortedMap.get?_eq_some_iff.mpr hm))

mutual

/-- **A sound draft denotes a sound document**, which is no deeper than the draft. -/
theorem Sound.value : ∀ {d : Draft} {v : Json}, d.Sound → d.value? = some v →
    v.Sound ∧ v.depth ≤ d.depth
  | .null, _, _, h | .bool _, _, _, h => by
    rw [value?] at h
    cases h
    exact ⟨trivial, Nat.le_refl 0⟩
  | .str _, _, _, h => by
    rw [value?, Option.map_eq_some_iff] at h
    obtain ⟨s, -, rfl⟩ := h
    exact ⟨trivial, Nat.le_refl 0⟩
  | .num _, v, .num hn, h => by
    rw [value?, Option.map_eq_some_iff] at h
    obtain ⟨n, hm, rfl⟩ := h
    rw [Json.Sound]
    exact ⟨hn n hm, Nat.le_refl 0⟩
  | .arr items closed, v, .arr hi, h => by
    rw [value?, Option.bind_eq_bind, Option.bind_eq_some_iff] at h
    obtain ⟨vs, hvs, h⟩ := h
    obtain ⟨hsound, hdepth⟩ := sound_values hi hvs
    split at h
    · cases h
      rw [Json.Sound, Json.depth, depth]
      exact ⟨hsound, Nat.succ_le_succ hdepth⟩
    · cases h
  | .obj members closed, v, .obj hm, h => by
    rw [value?, Option.bind_eq_bind, Option.bind_eq_some_iff] at h
    obtain ⟨f, hf, h⟩ := h
    have hfields := sound_fields hm hf
    split at h
    · cases h
      rw [depth]
      exact ⟨Json.sound_ofFields fun k v hv => (hfields k v hv).1,
        depth_ofFields_le fun k v hv => (hfields k v hv).2⟩
    · cases h
  | .broken, _, _, h => by
    rw [value?] at h
    cases h

theorem sound_values : ∀ {ds : List Draft} {vs : List Json}, (∀ d ∈ ds, d.Sound) →
    values? ds = some vs → Json.SoundItems vs ∧ Json.itemsDepth vs ≤ itemsDepth ds
  | [], _, _, h => by
    rw [values?] at h
    cases h
    exact ⟨trivial, Nat.le_refl 0⟩
  | d :: ds, _, hd, h => by
    obtain ⟨hfirst, hrest⟩ := List.forall_mem_cons.mp hd
    rw [values?, Option.bind_eq_bind, Option.bind_eq_some_iff] at h
    obtain ⟨v, hv, h⟩ := h
    rw [Option.bind_eq_bind, Option.bind_eq_some_iff] at h
    obtain ⟨vs, hvs, h⟩ := h
    cases h
    obtain ⟨hsound, hdepth⟩ := hfirst.value hv
    obtain ⟨hsounds, hdepths⟩ := sound_values hrest hvs
    rw [Json.SoundItems, Json.itemsDepth, itemsDepth]
    exact ⟨⟨hsound, hsounds⟩, max_le_max hdepth hdepths⟩

theorem sound_fields : ∀ {ms : List (Option String × Draft)} {f : Fields}, (∀ m ∈ ms, m.2.Sound) →
    fields? ms = some f → ∀ k v, f.get? k = some v → v.Sound ∧ v.depth ≤ membersDepth ms
  | [], _, _, h, k, v, hv => by
    rw [fields?] at h
    cases h
    cases hv
  | (name, d) :: ms, _, hm, h, k, v, hv => by
    obtain ⟨hfirst, hrest⟩ := List.forall_mem_cons.mp hm
    rw [fields?, Option.bind_eq_bind, Option.bind_eq_some_iff] at h
    obtain ⟨j, -, h⟩ := h
    rw [Option.bind_eq_bind, Option.bind_eq_some_iff] at h
    obtain ⟨u, hu, h⟩ := h
    rw [Option.bind_eq_bind, Option.bind_eq_some_iff] at h
    obtain ⟨f, hf, h⟩ := h
    cases h
    have hlater : f.get? k = some v → v.Sound ∧ v.depth ≤ membersDepth ((name, d) :: ms) := by
      intro hv
      obtain ⟨hsound, hdepth⟩ := sound_fields hrest hf k v hv
      exact ⟨hsound, hdepth.trans (le_max_right _ _)⟩
    split at hv
    · exact hlater hv
    · rw [SortedMap.get?_insert] at hv
      split at hv
      · cases hv
        obtain ⟨hsound, hdepth⟩ := hfirst.value hu
        exact ⟨hsound, hdepth.trans (le_max_left _ _)⟩
      · exact hlater hv

end

end Draft

/-! ## 4. Screens -/

namespace Screen

/-- The walk has put a member among those seen when it goes on, and one of unknown name has passed the
screen for it. -/
theorem exists_of_members_cons {known : List Field} {s : Screen} {name : Option String} {d : Draft}
    {ms : List (Option String × Draft)} {seen f : Fields}
    (h : members known (.keep s) seen ((name, d) :: ms) = .ok f) :
    ∃ k u, name = some k ∧ members known (.keep s) (seen.insert k u) ms = .ok f ∧
      (screenOf? known k = none → s d = .ok u) := by
  cases name with
  | none => cases h
  | some k =>
    unfold members at h
    cases hk : screenOf? known k with
    | some s' =>
      rw [hk] at h
      dsimp only at h
      split at h
      · cases h
      cases hu : s' d with
      | error x =>
        rw [hu] at h
        cases h
      | ok u =>
        rw [hu, Except.bind_ok] at h
        refine ⟨k, u, rfl, h, fun hnone => ?_⟩
        rw [hk] at hnone
        cases hnone
    | none =>
      rw [hk] at h
      dsimp only at h
      cases hu : s d with
      | error x =>
        rw [hu] at h
        cases h
      | ok u =>
        rw [hu, Except.bind_ok] at h
        exact ⟨k, u, rfl, h, fun _ => rfl⟩

/-- What is kept of an unknown member was let through by the screen for it, or was there before. -/
theorem mem_of_members {known : List Field} {s : Screen} {ms : List (Option String × Draft)}
    {seen f : Fields} (h : members known (.keep s) seen ms = .ok f) {k : String} {v : Json}
    (hk : screenOf? known k = none) (hv : f.get? k = some v) :
    seen.get? k = some v ∨ ∃ d, (some k, d) ∈ ms ∧ s d = .ok v := by
  induction ms generalizing seen with
  | nil =>
    cases h
    exact Or.inl hv
  | cons m ms ih =>
    obtain ⟨name, d⟩ := m
    obtain ⟨j, u, rfl, hrest, hu⟩ := exists_of_members_cons h
    rcases ih hrest with hseen | ⟨d', hd', hv'⟩
    · -- It stands among those seen by now: this member put it there, or it was there.
      rw [SortedMap.get?_insert] at hseen
      split at hseen
      · rename_i heq
        subst heq
        cases hseen
        exact Or.inr ⟨d, List.mem_cons_self, hu hk⟩
      · exact Or.inl hseen
    · exact Or.inr ⟨d', List.mem_cons_of_mem _ hd', hv'⟩

/-- Where the walk goes through, every unknown member has passed the screen for it. -/
theorem passed_of_members {known : List Field} {s : Screen} {ms : List (Option String × Draft)}
    {seen f : Fields} (h : members known (.keep s) seen ms = .ok f) {k : String} {d : Draft}
    (hk : screenOf? known k = none) (hd : (some k, d) ∈ ms) : ∃ u, s d = .ok u := by
  induction ms generalizing seen with
  | nil => cases hd
  | cons m ms ih =>
    obtain ⟨name, d'⟩ := m
    obtain ⟨j, u, rfl, hrest, hu⟩ := exists_of_members_cons h
    rcases List.mem_cons.mp hd with heq | hd
    · cases heq
      exact ⟨u, hu hk⟩
    · exact ih hrest hd

theorem depth_le_of_anything {limit : Nat} {d : Draft} {v : Json} (h : anything limit d = .ok v) :
    d.depth ≤ limit := by
  unfold anything at h
  split at h
  · cases h
  · exact Nat.not_lt.mp ‹_›

theorem sound_of_anything {limit : Nat} {d : Draft} {v : Json} (hd : d.Sound)
    (h : anything limit d = .ok v) : v.Sound ∧ v.depth ≤ limit := by
  have hlimit := depth_le_of_anything h
  rw [anything, if_neg (Nat.not_lt.mpr hlimit)] at h
  cases hv : d.value? with
  | none =>
    rw [hv] at h
    cases h
  | some u =>
    rw [hv] at h
    cases h
    obtain ⟨hsound, hdepth⟩ := hd.value hv
    exact ⟨hsound, hdepth.trans hlimit⟩

theorem sound_of_object {known : List Field} {limit : Nat} {d : Draft} {v : Json} (hd : d.Sound)
    (h : object known (.keep (anything limit)) d = .ok v) :
    ∃ f : Fields, v = Json.ofFields f ∧ ∀ k u, screenOf? known k = none → f.get? k = some u →
      u.Sound ∧ u.depth ≤ limit := by
  cases hd with
  | null | bool _ | num _ | str _ | arr _ | broken => cases h
  | @obj ms closed hms =>
    unfold object at h
    dsimp only at h
    cases hf : members known (.keep (anything limit)) SortedMap.empty ms with
    | error x =>
      rw [hf] at h
      cases h
    | ok f =>
      rw [hf, Except.bind_ok] at h
      split at h
      · cases h
      split at h
      · cases h
        refine ⟨f, rfl, fun k u hk hu => ?_⟩
        rcases mem_of_members hf hk hu with hseen | ⟨d, hd, hu⟩
        · cases hseen
        · exact sound_of_anything (hms _ hd) hu
      · cases h

/-- **What a text gives for unknown members is sound**, and as deep at most as the screen allows. Known
members are left out, since each kind of value has an encoding of its own. -/
theorem sound_of_text {known : List Field} {limit : Nat} {t : String} {v : Json}
    (h : text (object known (.keep (anything limit))) t = .ok v) :
    ∃ f : Fields, v = Json.ofFields f ∧ ∀ k u, screenOf? known k = none → f.get? k = some u →
      u.Sound ∧ u.depth ≤ limit := by
  unfold text at h
  dsimp only at h
  cases hv : object known (.keep (anything limit)) (Draft.ofText t).root with
  | error x =>
    rw [hv] at h
    cases h
  | ok u =>
    rw [hv, Except.bind_ok] at h
    split at h
    · cases h
    · cases h
      exact sound_of_object (Draft.sound_ofText t) hv

/-- **A document that can be read again** holds nothing deeper for unknown members than the screen
allows. So the limit of the reader is the limit of what a store in tables can keep. -/
theorem depth_le_of_text {known : List Field} {limit : Nat} {f : Fields} {u : Json}
    (hf : (Json.ofFields f).Sound)
    (h : text (object known (.keep (anything limit))) (Json.ofFields f).text = .ok u) {k : String}
    {v : Json} (hk : screenOf? known k = none) (hv : f.get? k = some v) : v.depth ≤ limit := by
  unfold text at h
  rw [Draft.ofText_text hf, Json.reread_ofFields] at h
  dsimp only at h
  rw [Json.ofFields, Draft.ofJson, object] at h
  cases hwalk : members known (.keep (anything limit)) SortedMap.empty
      (Draft.ofMembers (f.map Json.reread).entries) with
  | error x =>
    rw [hwalk] at h
    cases h
  | ok g =>
    have hread : (f.map Json.reread).get? k = some v.reread := by
      rw [SortedMap.get?_map, hv]
      rfl
    obtain ⟨w, hw⟩ :=
      passed_of_members hwalk hk (Draft.mem_ofMembers (SortedMap.get?_eq_some_iff.mp hread))
    have hdepth := depth_le_of_anything hw
    rwa [Draft.depth_ofJson, Json.depth_reread] at hdepth

end Screen
end AlertStatus
