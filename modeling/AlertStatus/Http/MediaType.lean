/-!
# Media types

A content type is a type and a subtype, each a token, followed by parameters. It announces a document
when the type is `application` and the subtype is `json` or ends in the suffix `+json`, in any case. A
content type that is not well formed announces nothing.
-/

set_option autoImplicit false

namespace AlertStatus
namespace MediaType

def isTokenChar (c : Char) : Bool :=
  c.isAlphanum || "!#$%&'*+-.^_`|~".toList.contains c

/-- The characters that a header may carry as text. -/
def isHeaderChar (c : Char) : Bool := c = '\t' || (0x20 ≤ c.toNat && c.toNat < 0x7F)

/-- Where a pass over the parameters stands. The flag tells whether the part holds a character. -/
inductive ParameterPart where
  | name (started : Bool)
  | value (started : Bool)
  | quoted (started : Bool)
  | afterQuoted
  | refused
deriving DecidableEq

namespace ParameterPart

/-- Takes one character. A blank may stand before a name and after a quoted value. -/
def step (p : ParameterPart) (c : Char) : ParameterPart :=
  match p with
  | .name started =>
    if c = ' ' ∧ started = false then .name false
    else if c = '=' ∧ started = true then .value false
    else if isTokenChar c then .name true
    else .refused
  | .value started =>
    if c = '"' ∧ started = false then .quoted false
    else if c = ';' ∧ started = true then .name false
    else if isTokenChar c then .value true
    else .refused
  | .quoted started =>
    if c = '"' ∧ started = true then .afterQuoted
    else if 0x1F < c.toNat ∧ c.toNat ≠ 0x7F then .quoted true
    else .refused
  | .afterQuoted => if c = ';' then .name false else if c = ' ' then .afterQuoted else .refused
  | .refused => .refused

/-- Whether the parameters may end here. -/
def complete : ParameterPart → Bool
  | .name started => !started
  | .value _ | .afterQuoted => true
  | .quoted _ | .refused => false

end ParameterPart

/-- Whether the text after the first semicolon is a list of parameters. -/
def parametersOk (cs : List Char) : Bool :=
  (cs.foldl ParameterPart.step (.name false)).complete

/-- Whether a subtype is `json` before its suffix or as its suffix. A plus sign at the start belongs to
the subtype. -/
def isJsonSubtype (subtype : List Char) : Bool :=
  let suffix := subtype.reverse.takeWhile (· ≠ '+')
  let base := (subtype.reverse.drop suffix.length).drop 1
  let json := ['j', 's', 'o', 'n']
  if base = [] then subtype = json else base.reverse = json || suffix.reverse = json

/-- Whether a content type announces a document. -/
def isJson (contentType : String) : Bool :=
  let cs := contentType.toList
  let kind := cs.takeWhile isTokenChar
  match cs.dropWhile isTokenChar with
  | '/' :: rest =>
    let subtype := rest.takeWhile isTokenChar
    cs.all isHeaderChar &&
    kind.map Char.toLower = "application".toList &&
    isJsonSubtype (subtype.map Char.toLower) &&
    match rest.dropWhile isTokenChar with
    | [] => true
    | ';' :: parameters => parametersOk parameters
    | _ => false
  | _ => false

end MediaType
end AlertStatus
