import AlertStatus.Json.Draft
import AlertStatus.Json.Printer

/-!
# Reading typed values from documents

A value of a type is taken from a document in two steps. A `Screen` walks a draft in the order of the
text and stops at the first fault: `Misread.malformed` when the text is not a document,
`Misread.mismatch` when it is one of another shape, so that of two faults the one that stands first in
the text is reported. What it lets through is a document, from which the value is built by looking up
its fields (`Readable.ofJson?`). A document that is already there needs the second step alone.
-/

set_option autoImplicit false

namespace AlertStatus

/-- Why a text was refused. -/
inductive Misread where
  | malformed
  | mismatch
deriving DecidableEq

/-- Checks a draft in the order of its text and gives the document it holds. -/
abbrev Screen := Draft → Except Misread Json

namespace Screen

/-- The fault of a draft that should have been something else: a scalar is read before it is refused. -/
def refuse : Draft → Misread
  | .broken | .num none | .str none => .malformed
  | _ => .mismatch

/-- A value without parts that satisfies `accepts`. -/
def scalar (accepts : Json → Bool) : Screen := fun d =>
  match d with
  | .arr .. | .obj .. => .error .mismatch
  | d =>
    match d.value? with
    | none => .error .malformed
    | some v => if accepts v then .ok v else .error .mismatch

def nullable (s : Screen) : Screen := fun d =>
  match d with
  | .null => .ok .null
  | d => s d

def list (s : Screen) : Screen := fun d =>
  match d with
  | .arr items closed => do
    let vs ← items.mapM s
    if closed then .ok (.arr vs) else .error .malformed
  | d => .error (refuse d)

/-- Any document whose depth stays within the limit. -/
def anything (limit : Nat) : Screen := fun d =>
  if limit < d.depth then .error .malformed
  else
    match d.value? with
    | some v => .ok v
    | none => .error .malformed

/-- A field of a structure: its name, what it may hold, and whether it has to be there. -/
structure Field where
  name : String
  screen : Screen
  required : Bool

def Field.needed (name : String) (s : Screen) : Field := ⟨name, s, true⟩

def Field.free (name : String) (s : Screen) : Field := ⟨name, s, false⟩

def screenOf? (known : List Field) (name : String) : Option Screen :=
  (known.find? fun f => f.name = name).map Field.screen

/-- What is done with members of unknown name: skipped, or kept when the screen lets them through. -/
inductive Others where
  | skip
  | keep (s : Screen)

/-- Walks the members of an object. A known name may occur once; of two members of one unknown name
the later one counts. -/
def members (known : List Field) (others : Others) :
    Fields → List (Option String × Draft) → Except Misread Fields
  | seen, [] => .ok seen
  | _, (none, _) :: _ => .error .malformed
  | seen, (some k, d) :: rest =>
    match screenOf? known k, others with
    | some s, _ =>
      if seen.contains k then .error .mismatch
      else do
        let v ← s d
        members known others (seen.insert k v) rest
    | none, .keep s => do
      let v ← s d
      members known others (seen.insert k v) rest
    | none, .skip => if d.wellFormed then members known others seen rest else .error .malformed

/-- Walks the items of a list that gives the fields of a structure in order. A list that ends before a
field that has to be there is too short, and one that goes on after the last field is not read further. -/
def positions (closed : Bool) : List Field → List Draft → Except Misread (List Json)
  | known, [] =>
    if closed = false then .error .malformed
    else if known.any Field.required then .error .mismatch
    else .ok []
  | [], _ :: _ => .error .malformed
  | f :: known, d :: ds => do
    let v ← f.screen d
    let vs ← positions closed known ds
    .ok (v :: vs)

/-- An object with the known fields. -/
def object (known : List Field) (others : Others) : Screen := fun d =>
  match d with
  | .obj ms closed => do
    let f ← members known others SortedMap.empty ms
    if closed = false then .error .malformed
    else if known.all fun k => !k.required || f.contains k.name then .ok (Json.ofFields f)
    else .error .mismatch
  | d => .error (refuse d)

/-- An object with the known fields, or a list of them in order. -/
def structure? (known : List Field) : Screen := fun d =>
  match d with
  | .arr items closed => (positions closed known items).map .arr
  | d => object known .skip d

/-- Applies a screen to a whole text. -/
def text (s : Screen) (t : String) : Except Misread Json := do
  let d := Draft.ofText t
  let v ← s d.root
  if d.trailing then .error .malformed else .ok v

end Screen

/-! ## Looking up fields -/

namespace Json

/-- The deepest document that a text may hold. -/
def depthLimit : Nat := 127

/-- The whole number of a document, when it lies between the bounds. -/
def int? (lo hi : Int) : Json → Option (Bounded lo hi)
  | .num (.int i) => Bounded.ofInt? lo hi i.val
  | _ => none

def instant? : Json → Option Instant := int? _ _

def checkState? : Json → Option CheckState := int? _ _

def str? : Json → Option String
  | .str s => some s
  | _ => none

def bool? : Json → Option Bool
  | .bool b => some b
  | _ => none

/-- The members of a document. The entries of an object are put in order. -/
def fields? : Json → Option Fields
  | .obj members => some (SortedMap.ofList members)
  | _ => none

def items? : Json → Option (List Json)
  | .arr items => some items
  | _ => none

/-- The fields of a structure, given by name or in the order of `names`. -/
def structureFields? (names : List String) : Json → Option Fields
  | .arr items => if items.length ≤ names.length then some (SortedMap.ofList (names.zip items)) else none
  | v => v.fields?

/-- The text that `t` holds, as a document of any shape. -/
def ofText? (t : String) : Option Json := (Screen.text (Screen.anything depthLimit) t).toOption

end Json

namespace Fields

variable {α : Type}

/-- The value of a field that has to be there. -/
def required (f : Fields) (name : String) (decode : Json → Option α) : Option α :=
  (f.get? name).bind decode

/-- The value of a field that may be missing or null. -/
def optional (f : Fields) (name : String) (decode : Json → Option α) : Option (Option α) :=
  match f.get? name with
  | none | some .null => some none
  | some v => (decode v).map some

/-- The value of a field, or `default` when it is missing. -/
def withDefault (f : Fields) (name : String) (default : α) (decode : Json → Option α) : Option α :=
  match f.get? name with
  | none => some default
  | some v => decode v

end Fields

/-! ## Readable types -/

/-- A type whose values are read from documents. -/
class Readable (α : Type) where
  /-- Lets through the drafts that hold a value. -/
  screen : Screen
  /-- The value that a document holds. -/
  ofJson? : Json → Option α

/-- The value of type `α` that a text holds, or the first fault of the text. -/
def readText (α : Type) [Readable α] (t : String) : Except Misread α := do
  let v ← Screen.text (Readable.screen α) t
  match Readable.ofJson? v with
  | some a => .ok a
  | none => .error .mismatch

namespace Screen

def instant : Screen := scalar fun v => v.instant?.isSome

def checkState : Screen := scalar fun v => v.checkState?.isSome

def str : Screen := scalar fun v => v.str?.isSome

def flag : Screen := scalar fun v => v.bool?.isSome

end Screen
end AlertStatus
