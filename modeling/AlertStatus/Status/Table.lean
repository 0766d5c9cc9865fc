import AlertStatus.Status.Rule

/-!
# The status table

A status table registers statuses by name, each with a code and the path of the rule that processes
entities with that status. Both may be missing from an entry. A table finds the name of a code in an
index that it keeps (`CodeIndex`). No code is registered under two names, so what the index gives for a
code is its one name (`StatusTable.distinct`).
-/

set_option autoImplicit false

namespace AlertStatus

structure TableEntry where
  code : Option Code
  rule : Option String
deriving DecidableEq

/-- Why a status table was refused, or a look-up in it failed. -/
inductive TableError where
  | unknownName (name : String)
  | missingCode (name : String)
  | unknownCode (code : Code)
  | duplicateCode (code : Code)
  | missingRule (name : String)
  | unknownRule (name path : String)
  | unreadable
deriving DecidableEq

def TableError.message : TableError → String
  | .unknownName name => "status " ++ name ++ " not registered"
  | .missingCode name => "status " ++ name ++ " has no code"
  | .unknownCode code => "code " ++ toString code.val ++ " does not exist"
  | .duplicateCode code => "code " ++ toString code.val ++ " is registered twice"
  | .missingRule name => "no task registered for status " ++ name
  | .unknownRule name path => "no task " ++ path ++ " registered for status " ++ name
  | .unreadable => "invalid status configuration: "

namespace TableEntry

/-- The fields of an entry, in the order in which a list gives them. -/
def layout : List Screen.Field :=
  [.free "code" (.nullable (.scalar fun v => (v.int? 0 255).isSome)), .free "task" (.nullable .str)]

def ofJson? (v : Json) : Option TableEntry := do
  let f ← v.structureFields? (layout.map Screen.Field.name)
  let code ← f.optional "code" (Json.int? 0 255)
  let rule ← f.optional "task" Json.str?
  some { code, rule }

instance : Readable TableEntry := ⟨Screen.structure? layout, ofJson?⟩

end TableEntry

/-- The names under which codes are registered, while a table is gone through. -/
structure CodeIndex where
  /-- The codes with their names. What was registered last stands first. -/
  names : List (Code × String)
  /-- The first code that was registered when it already had a name. -/
  duplicate : Option Code
deriving DecidableEq

namespace CodeIndex

def empty : CodeIndex := ⟨[], none⟩

/-- The name under which a code was registered last. -/
def name? (x : CodeIndex) (c : Code) : Option String := x.names.lookup c

/-- Registers a code under a name, in place of the one it had. -/
def register (x : CodeIndex) (c : Code) (name : String) : CodeIndex where
  names := (c, name) :: x.names
  duplicate := if (x.name? c).isSome && x.duplicate.isNone then some c else x.duplicate

/-- Registers the code of an entry, if it has one. -/
def add (x : CodeIndex) (e : String × TableEntry) : CodeIndex :=
  match e.2.code with
  | none => x
  | some c => x.register c e.1

/-- The index of the entries of a table, in order of their names. -/
def of (entries : SortedMap TableEntry) : CodeIndex := entries.entries.foldl add empty

end CodeIndex

/-- A status table in which no code is registered twice, with the index of its codes. -/
structure StatusTable where
  entries : SortedMap TableEntry
  index : CodeIndex
  indexed : index = .of entries
  distinct : index.duplicate = none

namespace StatusTable

def ofEntries (entries : SortedMap TableEntry) : Except TableError StatusTable :=
  match h : (CodeIndex.of entries).duplicate with
  | none => .ok ⟨entries, .of entries, rfl, h⟩
  | some c => .error (.duplicateCode c)

/-- Lets through an object of entries. -/
def screen : Screen :=
  Screen.object [] (.keep (Readable.screen TableEntry))

def entries? (v : Json) : Option (SortedMap TableEntry) := do
  let f ← v.fields?
  let l ← f.entries.mapM fun e => (TableEntry.ofJson? e.2).map fun t => (e.1, t)
  some (SortedMap.ofList l)

def ofText (t : String) : Except TableError StatusTable :=
  match (Screen.text screen t).toOption.bind entries? with
  | some entries => ofEntries entries
  | none => .error .unreadable

/-- The entries of the built-in statuses, each with its own code and rule. -/
def standardEntries : SortedMap TableEntry :=
  SortedMap.ofList <| Status.all.map fun s =>
    (s.name, { code := some s.code, rule := some s.rulePath })

/-- The table of the built-in statuses. -/
def standard : StatusTable where
  entries := standardEntries
  index := .of standardEntries
  indexed := rfl
  distinct := by decide

def names (t : StatusTable) : List String := t.entries.keys

def code (t : StatusTable) (name : String) : Except TableError Code :=
  match t.entries.get? name with
  | none => .error (.unknownName name)
  | some e =>
    match e.code with
    | none => .error (.missingCode name)
    | some c => .ok c

def name (t : StatusTable) (c : Code) : Except TableError String :=
  match t.index.name? c with
  | none => .error (.unknownCode c)
  | some name => .ok name

/-- The status whose rule is registered for a name. -/
def rule (t : StatusTable) (name : String) : Except TableError Status :=
  match t.entries.get? name with
  | none => .error (.unknownName name)
  | some e =>
    match e.rule with
    | none => .error (.missingRule name)
    | some path =>
      match Status.ofRulePath? path with
      | none => .error (.unknownRule name path)
      | some s => .ok s

/-- The status whose rule is registered for a code. -/
def ruleOfCode (t : StatusTable) (c : Code) : Except TableError Status := do
  let name ← t.name c
  t.rule name

/-- The status whose rule processes a record. -/
def ruleOf (t : StatusTable) (r : StatusRecord) : Except TableError Status :=
  t.ruleOfCode r.value.code

end StatusTable
end AlertStatus
