import ConnectionBroker.Config.Connection

/-!
# Connection strategies

A `StrategyTable` says for each engine what its driver can do when an SSH hop is required, and
with that how a service reaches its database: directly, by dialling through the session's
channels, or through a local forwarding tunnel for a driver that insists on opening its own
sockets. An engine without a row gets the table's fallback.

Rows are kept newest first, so the last one added for a name decides. A row is added under its
name in lower case, blanks included; a look-up trims the name it is asked for.
-/

namespace ConnectionBroker

/-- How a service reaches its database. -/
inductive Strategy where
  /-- No SSH hop. -/
  | direct
  /-- One channel of the SSH session for each connection. -/
  | channelDial
  /-- A local port that forwards to the database. -/
  | localForward
  deriving DecidableEq, Repr

/-- What an engine's driver can do when an SSH hop is required. -/
inductive SshSupport where
  /-- The driver takes a dialler made from SSH channels. -/
  | channelDialer
  /-- The driver opens its own sockets. -/
  | rawSocketOnly
  deriving DecidableEq, Repr

namespace Strategy

/-- The name of a strategy as it is shown. -/
def name : Strategy → String
  | direct => "direct"
  | channelDial => "channel-dial"
  | localForward => "local-forward"

/-- The name of a strategy in descriptions. -/
def constructorName : Strategy → String
  | direct => "Direct"
  | channelDial => "ChannelDial"
  | localForward => "LocalForward"

/-- The strategy over an SSH hop. -/
def overSsh : SshSupport → Strategy
  | .channelDialer => channelDial
  | .rawSocketOnly => localForward

end Strategy

/-- What the driver of each engine can do. -/
structure StrategyTable where
  /-- The rows, newest first. -/
  rows : List (String × SshSupport)
  fallback : SshSupport
  deriving DecidableEq, Repr

namespace StrategyTable

/-- The table without a row. -/
def new (fallback : SshSupport) : StrategyTable :=
  ⟨[], fallback⟩

/-- The table with a row added, which replaces any row of that name. -/
def withEngine (t : StrategyTable) (engine : String) (support : SshSupport) : StrategyTable :=
  { t with rows := (Text.asciiLower engine, support) :: t.rows }

/-- The engines that the broker knows. -/
def builtinRows : List (String × SshSupport) :=
  [("mysql", .channelDialer), ("postgresql", .channelDialer), ("postgres", .channelDialer),
    ("pg", .channelDialer), ("sqlite", .channelDialer), ("kingbase", .channelDialer),
    ("opengauss", .channelDialer), ("gbase", .channelDialer), ("odbc", .channelDialer),
    ("dameng", .rawSocketOnly), ("shentong", .rawSocketOnly), ("oracle", .rawSocketOnly)]

/-- The table of the engines that the broker knows. -/
def builtin : StrategyTable :=
  builtinRows.foldl (fun t row => t.withEngine row.1 row.2) (new .channelDialer)

instance : Inhabited StrategyTable := ⟨builtin⟩

/-- What the driver of the named engine can do. -/
def supportFor (t : StrategyTable) (engine : String) : SshSupport :=
  (t.rows.lookup (engineKey engine)).getD t.fallback

/-- How a service of the named engine reaches its database. -/
def strategyFor (t : StrategyTable) (engine : String) (tunnelled : Bool) : Strategy :=
  if tunnelled then Strategy.overSsh (t.supportFor engine) else .direct

end StrategyTable

end ConnectionBroker
