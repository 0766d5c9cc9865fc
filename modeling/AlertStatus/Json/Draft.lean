import AlertStatus.Json.Basic
import AlertStatus.Json.Token

/-!
# Documents as they are written

A `Draft` is what a text says before anyone asks what it means: the members of an object stand in the
order of the text, a name may occur twice, and a text that stops being a document part of the way
leaves its containers open. So every text has a draft, and a reader that walks it in order meets a
fault of shape and a fault of grammar in the order in which the text has them.

Drafts are built by a machine over tokens whose stack holds the containers that are still open.
-/

set_option autoImplicit false

namespace AlertStatus

/-- A document as it is written. A `num`, `str` or name without a value is well formed but denotes
nothing; `closed` tells whether the end of the container was found. -/
inductive Draft where
  | null
  | bool (b : Bool)
  | num (n : Option Number)
  | str (s : Option String)
  | arr (items : List Draft) (closed : Bool)
  | obj (members : List (Option String × Draft)) (closed : Bool)
  | broken

instance : Inhabited Draft := ⟨.broken⟩

/-- A whole text: the document it holds and whether something follows it. -/
structure DraftText where
  root : Draft
  trailing : Bool

namespace Draft

/-! ## Building -/

/-- What may come next inside an open list. -/
inductive ListNext where
  | itemOrEnd
  | item
  | commaOrEnd
deriving DecidableEq

/-- What may come next inside an open object. -/
inductive ObjectNext where
  | nameOrEnd
  | name
  | colon (name : Option String)
  | value (name : Option String)
  | commaOrEnd
deriving DecidableEq

/-- A container that is still open, its parts in reverse order. -/
inductive Frame where
  | list (items : List Draft) (next : ListNext)
  | object (members : List (Option String × Draft)) (next : ObjectNext)

/-- Where the machine stands: inside the open containers (innermost first), or done. -/
inductive Machine where
  | reading (stack : List Frame)
  | done (text : DraftText)

namespace Machine

def start : Machine := .reading []

/-- Whether a value may come next. -/
def takesValue : List Frame → Bool
  | [] => true
  | .list _ next :: _ => next ≠ .commaOrEnd
  | .object _ (.value _) :: _ => true
  | .object .. :: _ => false

/-- Puts a finished value where it belongs. -/
def place (v : Draft) : List Frame → Machine
  | [] => .done ⟨v, false⟩
  | .list items _ :: rest => .reading (.list (v :: items) .commaOrEnd :: rest)
  | .object members (.value name) :: rest =>
    .reading (.object ((name, v) :: members) .commaOrEnd :: rest)
  | .object members _ :: rest => .reading (.object members .commaOrEnd :: rest)

/-- The draft of one open container around `inner`, the draft of the container open inside it. -/
def abandonFrame (inner : Draft) : Frame → Draft
  | .list items .commaOrEnd => .arr items.reverse false
  | .list items _ => .arr (inner :: items).reverse false
  | .object members (.colon name) => .obj ((name, .broken) :: members).reverse false
  | .object members (.value name) => .obj ((name, inner) :: members).reverse false
  | .object members _ => .obj members.reverse false

/-- The draft when the text goes no further: all open containers stay open. -/
def abandon (stack : List Frame) : Machine :=
  .done ⟨stack.foldl abandonFrame .broken, false⟩

/-- Takes a token that is a value on its own. -/
def scalar (v : Draft) (stack : List Frame) : Machine :=
  if takesValue stack then place v stack else abandon stack

def step : Machine → Token → Machine
  | .done text, _ => .done { text with trailing := true }
  | .reading stack, t =>
    match t with
    | .null => scalar .null stack
    | .bool b => scalar (.bool b) stack
    | .num n => scalar (.num n) stack
    | .str s =>
      match stack with
      | .object members .nameOrEnd :: rest => .reading (.object members (.colon s) :: rest)
      | .object members .name :: rest => .reading (.object members (.colon s) :: rest)
      | _ => scalar (.str s) stack
    | .openList =>
      if takesValue stack then .reading (.list [] .itemOrEnd :: stack) else abandon stack
    | .openObject =>
      if takesValue stack then .reading (.object [] .nameOrEnd :: stack) else abandon stack
    | .closeList =>
      match stack with
      | .list items .itemOrEnd :: rest => place (.arr items.reverse true) rest
      | .list items .commaOrEnd :: rest => place (.arr items.reverse true) rest
      | _ => abandon stack
    | .closeObject =>
      match stack with
      | .object members .nameOrEnd :: rest => place (.obj members.reverse true) rest
      | .object members .commaOrEnd :: rest => place (.obj members.reverse true) rest
      | _ => abandon stack
    | .colon =>
      match stack with
      | .object members (.colon name) :: rest => .reading (.object members (.value name) :: rest)
      | _ => abandon stack
    | .comma =>
      match stack with
      | .list items .commaOrEnd :: rest => .reading (.list items .item :: rest)
      | .object members .commaOrEnd :: rest => .reading (.object members .name :: rest)
      | _ => abandon stack
    | .broken => abandon stack

/-- The draft of the tokens taken so far. -/
def finish : Machine → DraftText
  | .done text => text
  | .reading stack =>
    match abandon stack with
    | .done text => text
    | .reading _ => ⟨.broken, false⟩

end Machine

def ofText (text : String) : DraftText :=
  ((tokens text.toList).foldl Machine.step Machine.start).finish

/-! ## Meaning -/

mutual

/-- The document that a draft denotes: every part well formed and with a value. -/
def value? : Draft → Option Json
  | .null => some .null
  | .bool b => some (.bool b)
  | .num n => n.map .num
  | .str s => s.map .str
  | .arr items closed => do
    let vs ← values? items
    if closed then some (.arr vs) else none
  | .obj members closed => do
    let f ← fields? members
    if closed then some (Json.ofFields f) else none
  | .broken => none

/-- The documents that a list of drafts denotes. -/
def values? : List Draft → Option (List Json)
  | [] => some []
  | d :: ds => do
    let v ← value? d
    let vs ← values? ds
    some (v :: vs)

/-- The members that written members denote, a later one counting over an earlier one. -/
def fields? : List (Option String × Draft) → Option Fields
  | [] => some SortedMap.empty
  | (name, d) :: ds => do
    let k ← name
    let v ← value? d
    let rest ← fields? ds
    some (if rest.contains k then rest else rest.insert k v)

end

mutual

/-- Whether a draft is well formed to its end, with or without a value. -/
def wellFormed : Draft → Bool
  | .arr items closed => allWellFormed items && closed
  | .obj members closed => membersWellFormed members && closed
  | .broken => false
  | _ => true

def allWellFormed : List Draft → Bool
  | [] => true
  | d :: ds => wellFormed d && allWellFormed ds

def membersWellFormed : List (Option String × Draft) → Bool
  | [] => true
  | (_, d) :: ds => wellFormed d && membersWellFormed ds

end

mutual

/-- The number of lists and objects around the innermost part. -/
def depth : Draft → Nat
  | .arr items _ => itemsDepth items + 1
  | .obj members _ => membersDepth members + 1
  | _ => 0

def itemsDepth : List Draft → Nat
  | [] => 0
  | d :: ds => max (depth d) (itemsDepth ds)

def membersDepth : List (Option String × Draft) → Nat
  | [] => 0
  | (_, d) :: ds => max (depth d) (membersDepth ds)

end

mutual

def ofJson : Json → Draft
  | .null => .null
  | .bool b => .bool b
  | .num n => .num (some n)
  | .str s => .str (some s)
  | .arr items => .arr (ofItems items) true
  | .obj members => .obj (ofMembers members) true

def ofItems : List Json → List Draft
  | [] => []
  | v :: vs => ofJson v :: ofItems vs

def ofMembers : List (String × Json) → List (Option String × Draft)
  | [] => []
  | (k, v) :: vs => (some k, ofJson v) :: ofMembers vs

end

end Draft
end AlertStatus
