import AlertStatus.Event.Basic

/-!
# The entity of an event

An event reports on the entity whose path joins source type, connector, connector name, component and,
when it has one, resource.
-/

set_option autoImplicit false

namespace AlertStatus

inductive EntityError where
  | missingComponent
  | missingResource
deriving DecidableEq

def EntityError.message : EntityError → String
  | .missingComponent => "event has no component"
  | .missingResource => "resource event has no resource"

/-- The id of the entity that an event reports on. -/
def Event.entityId (e : Event) : Except EntityError String :=
  if e.component = "" then .error .missingComponent
  else
    let path := "/" ++ String.intercalate "/"
      [e.sourceType, e.connector, e.connectorName, e.component]
    let resource := e.resource.getD ""
    if resource ≠ "" then .ok (path ++ "/" ++ resource)
    else if e.sourceType = "resource" then .error .missingResource
    else .ok path

end AlertStatus
