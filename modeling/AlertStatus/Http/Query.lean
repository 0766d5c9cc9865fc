import AlertStatus.Json.Token
import AlertStatus.Text.Utf8
import AlertStatus.Text.WholeNumber

/-!
# Targets and queries

The target of a request is a path, perhaps a query after `?`, and perhaps a fragment after `#`,
which is dropped; an absolute target has a scheme and an authority before them. A query is a list of
parameters between `&`; in names and values `+` is a blank and `%` with two hexadecimal digits is a
byte. A parameter that is asked for may occur once.
-/

set_option autoImplicit false

namespace AlertStatus

/-- A form-encoded query, its parameters in order. -/
structure Query where
  parameters : List (String × String)
deriving DecidableEq

namespace Query

/-- The bytes that form-encoded bytes stand for. A percent sign that starts no escape stays. -/
def unescape : List Nat → List Nat
  | [] => []
  | 0x2B :: rest => 0x20 :: unescape rest
  | 0x25 :: a :: b :: rest =>
    match hexDigit? (Char.ofNat a), hexDigit? (Char.ofNat b) with
    | some h, some l => (h * 16 + l) :: unescape rest
    | _, _ => 0x25 :: unescape (a :: b :: rest)
  | b :: rest => b :: unescape rest

/-- The text that form-encoded bytes stand for. -/
def decode (bytes : List Nat) : String := decodeUtf8 (unescape bytes)

/-- The pieces of a list between separators. -/
def pieces (sep : Nat) : List Nat → List (List Nat)
  | [] => [[]]
  | b :: rest =>
    if b = sep then [] :: pieces sep rest
    else
      match pieces sep rest with
      | [] => [[b]]
      | p :: ps => (b :: p) :: ps

/-- The parameter of a piece: a name, and after the first `=` a value. -/
def parameter (piece : List Nat) : String × String :=
  (decode (piece.takeWhile (· ≠ 0x3D)), decode ((piece.dropWhile (· ≠ 0x3D)).drop 1))

def ofText (s : String) : Query :=
  ⟨((pieces 0x26 (encodeUtf8 s)).filter (· ≠ [])).map parameter⟩

def values (q : Query) (name : String) : List String :=
  (q.parameters.filter fun p => p.1 = name).map Prod.snd

/-- The value of a parameter that has to be there. -/
def required (q : Query) (name : String) : Option String :=
  match q.values name with
  | [v] => some v
  | _ => none

/-- The time of a parameter that may be missing. -/
def optionalInstant (q : Query) (name : String) : Option (Option Instant) :=
  match q.values name with
  | [] => some none
  | [v] => (WholeNumber.instant? v.toList).map some
  | _ => none

end Query

structure Target where
  path : String
  query : Query
deriving DecidableEq

namespace Target

/-- The characters of a scheme. -/
def isSchemeChar (c : Char) : Bool := c.isAlphanum || ['+', '-', '.', '~'].contains c

/-- What follows the scheme and the authority of an absolute target. The authority ends before the
first slash, question mark or number sign. -/
def afterAuthority? (cs : List Char) : Option (List Char) :=
  match cs.dropWhile isSchemeChar with
  | ':' :: '/' :: '/' :: rest => some (rest.dropWhile fun c => c ≠ '/' && c ≠ '?' && c ≠ '#')
  | _ => none

/-- The target with the given path, query and fragment. An empty path is the root. -/
def ofReference (cs : List Char) : Target :=
  let shown := cs.takeWhile (· ≠ '#')
  let path := shown.takeWhile (· ≠ '?')
  { path := if path = [] then "/" else String.ofList path
    query := .ofText (String.ofList ((shown.dropWhile (· ≠ '?')).drop 1)) }

/-- The target of a text: a path, an absolute target, or else an authority alone, which has no path. -/
def ofText (s : String) : Target :=
  match s.toList with
  | ['*'] => ⟨"*", ⟨[]⟩⟩
  | '/' :: rest => ofReference ('/' :: rest)
  | cs => ((afterAuthority? cs).map ofReference).getD ⟨"", ⟨[]⟩⟩

end Target
end AlertStatus
