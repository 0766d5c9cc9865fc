import AlertStatus.Data.SortedMap
import AlertStatus.Json.Number

/-!
# Document values

A document is null, a truth value, a number, a text, a list, or an object whose members have names.
The members of an object are kept in order of their names, each name once (`Json.ofFields`), so that
two objects with the same members are the same value. `Json.same` compares documents as numbers
compare: the two zeros are one number.
-/

set_option autoImplicit false

namespace AlertStatus

inductive Json where
  | null
  | bool (b : Bool)
  | num (n : Number)
  | str (s : String)
  | arr (items : List Json)
  | obj (members : List (String × Json))

instance : Inhabited Json := ⟨.null⟩

/-- The members of an object. -/
abbrev Fields := SortedMap Json

namespace Json

/-! ## Equality -/

mutual

/-- Equality up to a given comparison of numbers. -/
def eqBy (num : Number → Number → Bool) : Json → Json → Bool
  | .null, .null => true
  | .bool a, .bool b => a == b
  | .num a, .num b => num a b
  | .str a, .str b => a == b
  | .arr a, .arr b => eqItemsBy num a b
  | .obj a, .obj b => eqMembersBy num a b
  | _, _ => false

/-- Equality of lists of documents, place by place. -/
def eqItemsBy (num : Number → Number → Bool) : List Json → List Json → Bool
  | [], [] => true
  | a :: as, b :: bs => eqBy num a b && eqItemsBy num as bs
  | _, _ => false

/-- Equality of members, place by place. -/
def eqMembersBy (num : Number → Number → Bool) :
    List (String × Json) → List (String × Json) → Bool
  | [], [] => true
  | (j, a) :: as, (k, b) :: bs => j == k && eqBy num a b && eqMembersBy num as bs
  | _, _ => false

end

mutual

theorem eqBy_iff : ∀ a b : Json, eqBy (fun m n => m = n) a b = true ↔ a = b
  | .null, b => by cases b <;> simp [eqBy]
  | .bool a, b => by cases b <;> simp [eqBy]
  | .num a, b => by cases b <;> simp [eqBy]
  | .str a, b => by cases b <;> simp [eqBy]
  | .arr a, b => by cases b <;> simp [eqBy, eqItemsBy_iff a]
  | .obj a, b => by cases b <;> simp [eqBy, eqMembersBy_iff a]

theorem eqItemsBy_iff : ∀ a b : List Json, eqItemsBy (fun m n => m = n) a b = true ↔ a = b
  | [], b => by cases b <;> simp [eqItemsBy]
  | a :: as, b => by cases b <;> simp [eqItemsBy, eqBy_iff a, eqItemsBy_iff as]

theorem eqMembersBy_iff :
    ∀ a b : List (String × Json), eqMembersBy (fun m n => m = n) a b = true ↔ a = b
  | [], b => by cases b <;> simp [eqMembersBy]
  | (j, a) :: as, b => by
    cases b with
    | nil => simp [eqMembersBy]
    | cons e bs =>
      obtain ⟨k, b⟩ := e
      simp [eqMembersBy, eqBy_iff a, eqMembersBy_iff as]

end

instance : DecidableEq Json := fun a b => decidable_of_iff _ (eqBy_iff a b)

/-- Equality of documents as values: numbers compare by `Number.same`. -/
def same (a b : Json) : Bool := eqBy Number.same a b

/-! ## Objects -/

/-- The object with the given members. -/
def ofFields (f : Fields) : Json := .obj f.entries

/-- The object with the given members; of two for one name the later one counts. -/
def object (members : List (String × Json)) : Json := ofFields (SortedMap.ofList members)

/-- The document of a count. One that does not fit in 64 bits stops at the largest number. -/
def ofNat (n : Nat) : Json := .num (.int (Bounded.nearest ⟨0, by decide, by decide⟩ n))

/-! ## Depth -/

mutual

/-- The number of lists and objects around the innermost value. -/
def depth : Json → Nat
  | .arr items => itemsDepth items + 1
  | .obj members => membersDepth members + 1
  | _ => 0

def itemsDepth : List Json → Nat
  | [] => 0
  | a :: as => max (depth a) (itemsDepth as)

def membersDepth : List (String × Json) → Nat
  | [] => 0
  | (_, a) :: as => max (depth a) (membersDepth as)

end

end Json
end AlertStatus
