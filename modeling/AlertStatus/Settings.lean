import AlertStatus.Status.Table
import AlertStatus.Text.Blank
import AlertStatus.Text.WholeNumber

/-!
# Settings from the environment

Thresholds, the server's own settings and the status table are taken from environment variables. A
variable that is missing or cannot be read leaves the standard value in place. Blanks around numbers and
truth values do not matter; `true` and `false` are the only truth values.
-/

set_option autoImplicit false

namespace AlertStatus

abbrev Environment := SortedMap String

namespace Environment

/-- The value of a variable, read without the blanks around it. -/
def read {α : Type} (env : Environment) (name : String) (parse : List Char → Option α) : Option α :=
  (env.get? name).bind fun s => parse (trimBlanks s.toList)

def flag? (s : List Char) : Option Bool :=
  if s = "true".toList then some true else if s = "false".toList then some false else none

def commaParts : List Char → List (List Char)
  | [] => [[]]
  | c :: rest =>
    match commaParts rest with
    | [] => [[c]]
    | p :: ps => if c = ',' then [] :: p :: ps else (c :: p) :: ps

/-- The names of a comma-separated list. Empty ones do not count. -/
def nameList (s : String) : List String :=
  (((commaParts s.toList).map trimBlanks).filter (· ≠ [])).map String.ofList

/-- The thresholds and field policies of the environment. -/
def policy (env : Environment) : Policy where
  flappingFreq :=
    ((env.read "STATUSD_FLAPPING_FREQ" (WholeNumber.below? 18446744073709551616)).map (max 1)).getD
      Policy.standard.flappingFreq
  flappingTime :=
    (env.read "STATUSD_FLAPPING_TIME" WholeNumber.instant?).getD Policy.standard.flappingTime
  stealthyTime :=
    (env.read "STATUSD_STEALTHY_TIME" WholeNumber.instant?).getD Policy.standard.stealthyTime
  stealthyShow :=
    (env.read "STATUSD_STEALTHY_SHOW" WholeNumber.instant?).getD Policy.standard.stealthyShow
  restoreEvent := (env.read "STATUSD_RESTORE_EVENT" flag?).getD Policy.standard.restoreEvent
  exclusionFields :=
    ((env.get? "STATUSD_EXCLUSION_FIELDS").map nameList).getD Policy.standard.exclusionFields

end Environment

structure ServerSettings where
  httpPort : Nat
  dbPath : String
  /-- Seconds between two sweeps. -/
  beatInterval : Nat
deriving DecidableEq

namespace Environment

/-- The server settings of the environment. An interval of zero is ignored. -/
def server (env : Environment) : ServerSettings where
  httpPort := (env.read "STATUSD_HTTP_PORT" (WholeNumber.below? 65536)).getD 8080
  dbPath := (env.get? "STATUSD_DB_PATH").getD "statusd.db"
  beatInterval :=
    ((env.read "STATUSD_BEAT_INTERVAL" (WholeNumber.below? 18446744073709551616)).filter (0 < ·)).getD 60

/-- The status table of the environment; one that cannot be used is replaced by the standard one. -/
def table (env : Environment) : StatusTable :=
  match (env.get? "STATUSD_STATUS_CONF").map StatusTable.ofText with
  | some (.ok t) => t
  | _ => .standard

end Environment
end AlertStatus
