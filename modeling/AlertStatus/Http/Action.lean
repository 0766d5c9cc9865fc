import AlertStatus.Json.Reading

/-!
# Action requests

What an operator sends to acknowledge or cancel a live event: its routing key, and perhaps an author, a
comment and a time.
-/

set_option autoImplicit false

namespace AlertStatus

/-- An action of an operator on a live event. -/
structure ActionRequest where
  routingKey : String
  author : String
  comment : Option String
  timestamp : Option Instant
deriving DecidableEq

namespace ActionRequest

/-- The fields of a request, in the order in which a list gives them. -/
def layout : List Screen.Field :=
  [.needed "rk" .str,
   .free "author" .str,
   .free "comment" (.nullable .str),
   .free "timestamp" (.nullable .instant)]

def ofJson? (v : Json) : Option ActionRequest := do
  let f ← v.structureFields? (layout.map Screen.Field.name)
  let routingKey ← f.required "rk" Json.str?
  let author ← f.withDefault "author" "" Json.str?
  let comment ← f.optional "comment" Json.str?
  let timestamp ← f.optional "timestamp" Json.instant?
  some { routingKey, author, comment, timestamp }

instance : Readable ActionRequest := ⟨Screen.structure? layout, ofJson?⟩

end ActionRequest
end AlertStatus
