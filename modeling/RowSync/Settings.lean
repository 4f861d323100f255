import RowSync.Limits
import RowSync.Text.Blank
import RowSync.Text.Quoted
import RowSync.Text.Unsigned

/-!
# Settings

The settings of the service, read from named values such as environment variables. Numbers may have
white space around them, the port apart.
-/

namespace RowSync

/-- The settings of the service. -/
structure Settings where
  /-- The address to listen on. -/
  host : String := "0.0.0.0"
  /-- The port to listen on. -/
  port : Nat := 3000
  /-- Where the database is; rows are kept in memory if there is none. -/
  databaseUrl : Option String := none
  /-- The greatest number of open connections to the database. -/
  databaseMaxConnections : Nat := 10
  /-- The time that a request may take, in milliseconds. -/
  requestTimeout : Nat := 30000
  /-- What requests are held to. -/
  limits : Limits := {}
deriving DecidableEq, Repr

/-- Why settings cannot be read. -/
inductive SettingsError where
  /-- The port is no port number. -/
  | port
  /-- A setting is no number in its range. -/
  | number (key value : String)
deriving DecidableEq, Repr

/-- The text of an error. -/
def SettingsError.message : SettingsError → String
  | .port => "Invalid PORT value"
  | .number key value => "Invalid value for " ++ key ++ ": " ++ Text.quoted value

namespace Settings

/-- The number that a setting gives, or the default if the setting is missing. -/
def number (lookup : String → Option String) (key : String) (limit default : Nat) :
    Except SettingsError Nat :=
  match lookup key with
  | none => .ok default
  | some value =>
    match Text.unsigned? limit (Text.trimmed value) with
    | some number => .ok number
    | none => .error (.number key value)

/-- The port that the settings give. -/
def portNumber (lookup : String → Option String) (default : Nat) : Except SettingsError Nat :=
  match lookup "PORT" with
  | none => .ok default
  | some value =>
    match Text.unsigned? UInt16.size value with
    | some port => .ok port
    | none => .error .port

/-- The settings that named values give. Of several faults the first in this order is reported. A
tolerance of zero for claimed edit times means that they are not checked. -/
def ofLookup (lookup : String → Option String) : Except SettingsError Settings := do
  let defaults : Settings := {}
  let port ← portNumber lookup defaults.port
  let connections ←
    number lookup "DATABASE_MAX_CONNECTIONS" UInt32.size defaults.databaseMaxConnections
  if connections = 0 then .error (.number "DATABASE_MAX_CONNECTIONS" "0")
  let timeout ← number lookup "REQUEST_TIMEOUT_MS" UInt64.size defaults.requestTimeout
  let maxBatch ← number lookup "MAX_BATCH_SIZE" UInt64.size defaults.limits.maxBatch
  let skew ← number lookup "MAX_CLOCK_SKEW_MS" UInt64.size 300000
  return {
    host := (lookup "HOST").getD defaults.host
    port
    databaseUrl := (lookup "DATABASE_URL").filter fun url => Text.trimmed url != ""
    databaseMaxConnections := connections
    requestTimeout := timeout
    limits := { maxBatch, maxSkew := if skew = 0 then none else some (UInt64.ofNat skew) }
  }

end Settings

end RowSync
