import AlertStatus.Data.ByTime
import Mathlib.Data.List.Forall2
import Mathlib.Data.List.Sort

/-!
# Lists that are decoded and lists that are ordered

Rows are decoded one by one, and one that cannot be decoded fails the whole list
(`mapM_eq_ok_iff`, `exists_mapM_eq_ok_iff`).

Entries are put in order of time by insertion. What comes out is in order, has what went in, and
does not depend on what the entries carry besides their times.
-/

set_option autoImplicit false

namespace AlertStatus

variable {ε α β : Type}

/-! ## 1. Decoding each item -/

/-- A list is decoded to what its items are decoded to, in their order. -/
theorem mapM_eq_ok_iff {f : α → Except ε β} {l : List α} {l' : List β} :
    l.mapM f = .ok l' ↔ List.Forall₂ (fun a b => f a = .ok b) l l' := by
  induction l generalizing l' with
  | nil =>
    rw [List.mapM_nil, List.forall₂_nil_left_iff]
    exact ⟨fun h => (Except.ok.inj h).symm, fun h => by rw [h]; rfl⟩
  | cons a l ih =>
    rw [List.mapM_cons, List.forall₂_cons_left_iff]
    cases ha : f a with
    | error e => exact ⟨nofun, fun ⟨_, _, h, _⟩ => nomatch h⟩
    | ok b =>
      -- `ih` is asked at the tail of whatever the whole list is decoded to.
      cases hl : l.mapM f with
      | error e =>
        refine ⟨nofun, ?_⟩
        rintro ⟨b', t, -, ht, -⟩
        rw [← ih, hl] at ht
        exact nomatch ht
      | ok t =>
        constructor
        · rintro ⟨⟩
          exact ⟨b, t, rfl, ih.mp hl, rfl⟩
        · rintro ⟨b', t', hb, ht, rfl⟩
          rw [← ih, hl] at ht
          cases hb
          cases ht
          rfl

theorem exists_forall₂ {P : α → β → Prop} {l : List α} (h : ∀ a ∈ l, ∃ b, P a b) :
    ∃ l', List.Forall₂ P l l' := by
  induction l with
  | nil => exact ⟨[], .nil⟩
  | cons a l ih =>
    obtain ⟨⟨b, hb⟩, hl⟩ := List.forall_mem_cons.mp h
    obtain ⟨t, ht⟩ := ih hl
    exact ⟨b :: t, .cons hb ht⟩

/-- A list is decoded as soon as each of its items is. So one row that cannot be decoded fails a query
of any length. -/
theorem exists_mapM_eq_ok_iff {f : α → Except ε β} {l : List α} :
    (∃ l', l.mapM f = .ok l') ↔ ∀ a ∈ l, ∃ b, f a = .ok b := by
  simp only [mapM_eq_ok_iff]
  refine ⟨?_, exists_forall₂⟩
  rintro ⟨l', hl'⟩
  induction hl' with
  | nil => exact List.forall_mem_nil _
  | cons hab _ ih => exact List.forall_mem_cons.mpr ⟨⟨_, hab⟩, ih⟩

theorem mem_of_mapM_eq_ok {f : α → Except ε β} {l : List α} {l' : List β} (h : l.mapM f = .ok l')
    (b : β) : b ∈ l' ↔ ∃ a ∈ l, f a = .ok b := by
  rw [mapM_eq_ok_iff] at h
  induction h with
  | nil => exact ⟨nofun, nofun⟩
  | cons hab _ ih =>
    rw [List.mem_cons, ih, List.exists_mem_cons_iff, hab, Except.ok.injEq]
    exact or_congr_left eq_comm

/-- What decoding leaves alone is the same of the list as a whole. -/
theorem map_of_mapM_eq_ok {γ : Type} {f : α → Except ε β} {g : α → γ} {g' : β → γ}
    (hg : ∀ a b, f a = .ok b → g' b = g a) {l : List α} {l' : List β} (h : l.mapM f = .ok l') :
    l'.map g' = l.map g := by
  rw [mapM_eq_ok_iff] at h
  induction h with
  | nil => rfl
  | cons hab _ ih => rw [List.map_cons, List.map_cons, hg _ _ hab, ih]

/-! ## 2. Putting in order of time -/

def noLater (time : α → Instant) (a b : α) : Prop := time a ≤ time b

instance (time : α → Instant) : DecidableRel (noLater time) :=
  fun a b => inferInstanceAs (Decidable (time a ≤ time b))

instance (time : α → Instant) : Std.Total (noLater time) :=
  ⟨fun a b => Int.le_total (time a).val (time b).val⟩

instance (time : α → Instant) : IsTrans α (noLater time) :=
  ⟨fun _ _ _ h h' => Int.le_trans h h'⟩

theorem insertByTime_eq (time : α → Instant) (a : α) (l : List α) :
    insertByTime time a l = l.orderedInsert (noLater time) a := by
  induction l with
  | nil => rfl
  | cons b l ih =>
    rw [insertByTime, List.orderedInsert, ih]
    rfl

theorem orderByTime_eq (time : α → Instant) (l : List α) :
    orderByTime time l = l.insertionSort (noLater time) := by
  induction l with
  | nil => rfl
  | cons a l ih =>
    rw [List.insertionSort_cons, ← ih, ← insertByTime_eq]
    rfl

theorem perm_orderByTime (time : α → Instant) (l : List α) : (orderByTime time l).Perm l := by
  rw [orderByTime_eq]
  exact List.perm_insertionSort _ l

theorem pairwise_orderByTime (time : α → Instant) (l : List α) :
    (orderByTime time l).Pairwise (noLater time) := by
  rw [orderByTime_eq]
  exact List.pairwise_insertionSort _ l

/-- Entries of different times come out in strict order. Of two with one time the earlier entry would
come first. -/
theorem strict_orderByTime {time : α → Instant} {l : List α} (h : (l.map time).Nodup) :
    (orderByTime time l).Pairwise fun a b => time a < time b := by
  have hnodup : ((orderByTime time l).map time).Nodup :=
    ((perm_orderByTime time l).map time).nodup_iff.mpr h
  refine (pairwise_orderByTime time l).imp₂ ?_ (List.pairwise_map.mp hnodup)
  intro a b hle hne
  exact Int.lt_iff_le_and_ne.mpr ⟨hle, fun heq => hne (Bounded.ext heq)⟩

theorem orderByTime_map {time : α → Instant} {time' : β → Instant} {f : α → β}
    (h : ∀ a, time' (f a) = time a) (l : List α) :
    orderByTime time' (l.map f) = (orderByTime time l).map f := by
  rw [orderByTime_eq, orderByTime_eq, List.map_insertionSort (noLater time) (noLater time') f]
  intro a _ b _
  rw [noLater, noLater, h, h]

end AlertStatus
