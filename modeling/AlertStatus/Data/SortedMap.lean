/-!
# Maps sorted by key

A finite map from strings, kept as a list of entries in strictly increasing order of their keys
(by code point, which is also the order of their UTF-8 bytes). The order is part of the type, so two
maps that answer every look-up alike are equal (`SortedMap.ext_get?`), and the entries can be shown
as they stand.
-/

set_option autoImplicit false

namespace AlertStatus

/-- A finite map from strings to `α`, its entries in strictly increasing order of keys. -/
structure SortedMap (α : Type) where
  entries : List (String × α)
  sorted : entries.Pairwise fun a b => a.1 < b.1
deriving DecidableEq

namespace SortedMap

variable {α β : Type}

/-! ## Operations on sorted lists of entries -/

/-- Puts `v` at `k`, in place of what was there. -/
def insertEntry (k : String) (v : α) : List (String × α) → List (String × α)
  | [] => [(k, v)]
  | e :: rest =>
    if k < e.1 then (k, v) :: e :: rest
    else if k = e.1 then (k, v) :: rest
    else e :: insertEntry k v rest

def lookupEntry (k : String) : List (String × α) → Option α
  | [] => none
  | e :: rest => if k = e.1 then some e.2 else lookupEntry k rest

theorem lt_of_not_lt_of_ne {a b : String} (h : ¬ a < b) (hne : a ≠ b) : b < a := by
  have h₁ : b ≤ a := String.not_lt.mp h
  refine Decidable.byContradiction fun h₂ => hne ?_
  exact String.le_antisymm (String.not_lt.mp h₂) h₁

theorem mem_insertEntry {k : String} {v : α} {l : List (String × α)} {e : String × α} :
    e ∈ insertEntry k v l → e = (k, v) ∨ e ∈ l := by
  induction l with
  | nil => simp [insertEntry]
  | cons a l ih =>
    unfold insertEntry
    split
    · simp
    · split
      · simp only [List.mem_cons]
        rintro (h | h)
        · exact Or.inl h
        · exact Or.inr (Or.inr h)
      · simp only [List.mem_cons]
        rintro (h | h)
        · exact Or.inr (Or.inl h)
        · rcases ih h with h | h
          · exact Or.inl h
          · exact Or.inr (Or.inr h)

theorem sorted_insertEntry (k : String) (v : α) {l : List (String × α)}
    (h : l.Pairwise fun a b => a.1 < b.1) :
    (insertEntry k v l).Pairwise fun a b => a.1 < b.1 := by
  induction l with
  | nil => simp [insertEntry]
  | cons a l ih =>
    have hl := List.pairwise_cons.mp h
    unfold insertEntry
    split
    · rename_i hka
      refine List.pairwise_cons.mpr ⟨fun e he => ?_, h⟩
      rcases List.mem_cons.mp he with rfl | he
      · exact hka
      · exact String.lt_trans hka (hl.1 e he)
    · split
      · rename_i heq
        refine List.pairwise_cons.mpr ⟨fun e he => ?_, hl.2⟩
        show k < e.1
        rw [heq]
        exact hl.1 e he
      · rename_i hlt hne
        refine List.pairwise_cons.mpr ⟨fun e he => ?_, ih hl.2⟩
        rcases mem_insertEntry he with rfl | he
        · exact lt_of_not_lt_of_ne hlt hne
        · exact hl.1 e he

/-! ## The map -/

def empty : SortedMap α := ⟨[], List.Pairwise.nil⟩

instance : EmptyCollection (SortedMap α) := ⟨empty⟩
instance : Inhabited (SortedMap α) := ⟨empty⟩

def get? (m : SortedMap α) (k : String) : Option α := lookupEntry k m.entries

def contains (m : SortedMap α) (k : String) : Bool := (m.get? k).isSome

def insert (m : SortedMap α) (k : String) (v : α) : SortedMap α :=
  ⟨insertEntry k v m.entries, sorted_insertEntry k v m.sorted⟩

def filter (p : String → α → Bool) (m : SortedMap α) : SortedMap α :=
  ⟨m.entries.filter fun e => p e.1 e.2, m.sorted.filter _⟩

def erase (m : SortedMap α) (k : String) : SortedMap α := m.filter fun j _ => j ≠ k

def map (f : α → β) (m : SortedMap α) : SortedMap β :=
  ⟨m.entries.map fun e => (e.1, f e.2), by
    exact List.pairwise_map.mpr (m.sorted.imp fun h => h)⟩

/-- The map with the given entries; of two values for one key the later one counts. -/
def ofList (l : List (String × α)) : SortedMap α :=
  l.foldl (fun m e => m.insert e.1 e.2) empty

def toList (m : SortedMap α) : List (String × α) := m.entries

def keys (m : SortedMap α) : List String := m.entries.map Prod.fst

def size (m : SortedMap α) : Nat := m.entries.length

def isEmpty (m : SortedMap α) : Bool := m.entries.isEmpty

/-! ## Look-up after each operation -/

theorem lookupEntry_insertEntry (k j : String) (v : α) (l : List (String × α)) :
    lookupEntry j (insertEntry k v l) = if j = k then some v else lookupEntry j l := by
  induction l with
  | nil => simp [insertEntry, lookupEntry]
  | cons a l ih =>
    unfold insertEntry
    split
    · simp [lookupEntry]
    · split
      · rename_i h
        subst h
        by_cases hj : j = a.1 <;> simp [lookupEntry, hj]
      · rename_i hne
        by_cases hj : j = a.1
        · subst hj
          have : a.1 ≠ k := fun h => hne h.symm
          simp [lookupEntry, this]
        · simp [lookupEntry, hj, ih]

theorem lookupEntry_eq_none {k : String} {l : List (String × α)} (h : ∀ e ∈ l, k ≠ e.1) :
    lookupEntry k l = none := by
  induction l with
  | nil => rfl
  | cons a l ih =>
    have ha : k ≠ a.1 := h a (List.mem_cons_self ..)
    simp only [lookupEntry, ha, if_false]
    exact ih fun e he => h e (List.mem_cons_of_mem _ he)

theorem lookupEntry_filter (p : String → α → Bool) (k : String) {l : List (String × α)}
    (h : l.Pairwise fun a b => a.1 < b.1) :
    lookupEntry k (l.filter fun e => p e.1 e.2) = (lookupEntry k l).filter (p k) := by
  induction l with
  | nil => rfl
  | cons a l ih =>
    have hl := List.pairwise_cons.mp h
    by_cases hp : p a.1 a.2 = true
    · simp only [List.filter_cons, hp, if_true, lookupEntry]
      split
      · rename_i hk
        subst hk
        simp [Option.filter, hp]
      · exact ih hl.2
    · simp only [List.filter_cons, hp, lookupEntry]
      by_cases hk : k = a.1
      · subst hk
        have hnone : lookupEntry a.1 (l.filter fun e => p e.1 e.2) = none := by
          refine lookupEntry_eq_none fun e he heq => ?_
          have := hl.1 e (List.mem_filter.mp he).1
          rw [heq] at this
          exact String.lt_irrefl _ this
        simp [hnone, Option.filter, hp]
      · simp [hk, ih hl.2]

@[simp] theorem get?_empty (k : String) : (empty : SortedMap α).get? k = none := rfl

theorem get?_insert (m : SortedMap α) (k j : String) (v : α) :
    (m.insert k v).get? j = if j = k then some v else m.get? j :=
  lookupEntry_insertEntry k j v m.entries

theorem get?_filter (m : SortedMap α) (p : String → α → Bool) (k : String) :
    (m.filter p).get? k = (m.get? k).filter (p k) :=
  lookupEntry_filter p k m.sorted

theorem get?_erase (m : SortedMap α) (k j : String) :
    (m.erase k).get? j = if j = k then none else m.get? j := by
  rw [erase, get?_filter]
  by_cases h : j = k
  · cases hg : m.get? j <;> simp [Option.filter, h]
  · cases hg : m.get? j <;> simp [Option.filter, h]

theorem get?_map (m : SortedMap α) (f : α → β) (k : String) :
    (m.map f).get? k = (m.get? k).map f := by
  show lookupEntry k (m.entries.map fun e => (e.1, f e.2)) = (lookupEntry k m.entries).map f
  induction m.entries with
  | nil => rfl
  | cons a l ih =>
    simp only [List.map_cons, lookupEntry]
    split
    · rfl
    · exact ih

theorem lookupEntry_eq_some_iff {k : String} {v : α} {l : List (String × α)}
    (h : l.Pairwise fun a b => a.1 < b.1) : lookupEntry k l = some v ↔ (k, v) ∈ l := by
  induction l with
  | nil => simp [lookupEntry]
  | cons a l ih =>
    have hl := List.pairwise_cons.mp h
    simp only [lookupEntry, List.mem_cons]
    split
    · rename_i hk
      subst hk
      constructor
      · intro hv
        left
        cases hv
        rfl
      · rintro (hv | hv)
        · rw [← hv]
        · exact absurd (hl.1 _ hv) (String.lt_irrefl _)
    · rename_i hk
      rw [ih hl.2]
      constructor
      · exact Or.inr
      · rintro (hv | hv)
        · exact absurd (congrArg Prod.fst hv) hk
        · exact hv

theorem get?_eq_some_iff {m : SortedMap α} {k : String} {v : α} :
    m.get? k = some v ↔ (k, v) ∈ m.entries :=
  lookupEntry_eq_some_iff m.sorted

theorem entries_ext {l r : List (String × α)} (hl : l.Pairwise fun a b => a.1 < b.1)
    (hr : r.Pairwise fun a b => a.1 < b.1) (h : ∀ k, lookupEntry k l = lookupEntry k r) : l = r := by
  induction l generalizing r with
  | nil =>
    cases r with
    | nil => rfl
    | cons b r =>
      have := h b.1
      simp [lookupEntry] at this
  | cons a l ih =>
    cases r with
    | nil =>
      have := h a.1
      simp [lookupEntry] at this
    | cons b r =>
      have hl' := List.pairwise_cons.mp hl
      have hr' := List.pairwise_cons.mp hr
      have hab : a = b := by
        have ha : (a.1, a.2) ∈ b :: r := (lookupEntry_eq_some_iff hr).mp
          ((h a.1).symm.trans (by simp [lookupEntry]))
        have hb : (b.1, b.2) ∈ a :: l := (lookupEntry_eq_some_iff hl).mp
          ((h b.1).trans (by simp [lookupEntry]))
        rcases List.mem_cons.mp ha with ha | ha
        · exact ha
        · rcases List.mem_cons.mp hb with hb | hb
          · exact hb.symm
          · exact absurd (String.lt_trans (hl'.1 _ hb) (hr'.1 _ ha)) (String.lt_irrefl _)
      subst hab
      congr 1
      refine ih hl'.2 hr'.2 fun k => ?_
      by_cases hk : k = a.1
      · subst hk
        rw [lookupEntry_eq_none, lookupEntry_eq_none]
        · intro e he heq
          have := hr'.1 e he
          rw [← heq] at this
          exact String.lt_irrefl _ this
        · intro e he heq
          have := hl'.1 e he
          rw [← heq] at this
          exact String.lt_irrefl _ this
      · have := h k
        simpa [lookupEntry, hk] using this

/-- Maps that answer every look-up alike are equal. -/
theorem ext_get? {m n : SortedMap α} (h : ∀ k, m.get? k = n.get? k) : m = n := by
  cases m with
  | mk l hl =>
    cases n with
    | mk r hr =>
      have : l = r := entries_ext hl hr h
      subst this
      rfl

end SortedMap
end AlertStatus
