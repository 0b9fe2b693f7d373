import ConnectionBroker.Error
import ConnectionBroker.Text.Blank

/-!
# Connection configs

A `ConnectionConfig` is everything a request says about the database it wants to reach; an empty
text means that the field was not set. The broker never changes the config it is given: the
functions here that begin with `with` return a changed copy.

`ConnectionConfig.validate` accepts a config if it identifies a database: by path for SQLite, by
data source name for ODBC, and by host and port for every other engine.
-/

namespace ConnectionBroker

/-- What a request says about the database it wants to reach. -/
structure ConnectionConfig where
  engine : String
  host : String
  port : UInt16
  databasePath : String
  database : String
  dbName : String
  odbcDsn : String
  odbcDialectName : String
  username : String
  password : String
  tlsConfig : String
  tlsRootCert : String
  tlsClientCert : String
  tlsClientKey : String
  /-- Extra driver parameters, appended to the data source name. -/
  dsnAppend : String
  deriving DecidableEq, Repr

/-- A port as it is written after a host. -/
def portText (port : UInt16) : String :=
  toString port.toNat

/-- A host and a port. -/
def hostAndPort (host : String) (port : UInt16) : String :=
  host ++ ":" ++ portText port

/-- The name under which an engine is looked up: no blanks around it, ASCII letters in lower
case. -/
def engineKey (engine : String) : String :=
  Text.asciiLower (Text.trim engine)

namespace ConnectionConfig

/-- The config in which nothing is set. -/
def empty : ConnectionConfig :=
  ⟨"", "", 0, "", "", "", "", "", "", "", "", "", "", "", ""⟩

instance : Inhabited ConnectionConfig := ⟨empty⟩

/-- A config for an engine at a host and a port. -/
def new (engine host : String) (port : UInt16) : ConnectionConfig :=
  { empty with engine, host, port }

/-- The config for the named database. -/
def withDatabase (c : ConnectionConfig) (database : String) : ConnectionConfig :=
  { c with database }

/-- The config for the given login. -/
def withCredentials (c : ConnectionConfig) (username password : String) : ConnectionConfig :=
  { c with username, password }

/-- The config pointed at another endpoint, such as the local end of a tunnel. -/
def withEndpoint (c : ConnectionConfig) (host : String) (port : UInt16) : ConnectionConfig :=
  { c with host, port }

/-- The key of the config's engine. -/
def engineKey (c : ConnectionConfig) : String :=
  ConnectionBroker.engineKey c.engine

/-- The parameters that MySQL is given if the request names none. -/
def mysqlParameters : String := "&charset=utf8mb4"

/-- The config with the defaults of its engine's driver. -/
def withEngineDefaults (c : ConnectionConfig) : ConnectionConfig :=
  if c.engineKey = "mysql" ∧ c.dsnAppend = "" then { c with dsnAppend := mysqlParameters } else c

/-- The host and the port. -/
def address (c : ConnectionConfig) : String :=
  hostAndPort c.host c.port

/-- Why the config does not identify a database, if it does not. -/
def invalidity (c : ConnectionConfig) : Option String :=
  let engine := c.engineKey
  if engine = "" then some "engine type is required"
  else if engine = "sqlite" then
    if c.databasePath = "" then some "sqlite requires a database path" else none
  else if engine = "odbc" then
    if c.odbcDsn = "" then some "odbc requires a DSN" else none
  else if Text.trim c.host = "" then some (engine ++ " requires a host")
  else if c.port = 0 then some (engine ++ " requires a non-zero port")
  else none

/-- Accepts a config that identifies a database. -/
def validate (c : ConnectionConfig) : Except BrokerError Unit :=
  match c.invalidity with
  | some reason => .error (.configInvalid reason)
  | none => .ok ()

end ConnectionConfig

end ConnectionBroker
