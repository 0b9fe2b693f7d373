import ConnectionBroker.Config.Codec

/-!
# Broker settings

The three times that govern a broker, in milliseconds: how long an unused service is kept, how
often the sweeper looks for such services, and how long connecting to an SSH host may take. Each
has a default, and `BrokerSettings.validate` refuses zero.
-/

namespace ConnectionBroker

/-- The times that govern a broker, in milliseconds. -/
structure BrokerSettings where
  idleTtl : UInt64
  sweepInterval : UInt64
  sshConnectTimeout : UInt64
  deriving DecidableEq, Repr

namespace BrokerSettings

/-- Ten minutes unused, a sweep each minute, ten seconds to connect. -/
def default : BrokerSettings :=
  ⟨600000, 60000, 10000⟩

instance : Inhabited BrokerSettings := ⟨default⟩

/-- Why the settings are refused, if they are. -/
def invalidity (s : BrokerSettings) : Option String :=
  if s.idleTtl = 0 then some "idleTtlMs must be positive"
  else if s.sweepInterval = 0 then some "sweepIntervalMs must be positive"
  else if s.sshConnectTimeout = 0 then some "sshConnectTimeoutMs must be positive"
  else none

/-- Accepts settings in which every time is positive. -/
def validate (s : BrokerSettings) : Except BrokerError Unit :=
  match s.invalidity with
  | some reason => .error (.settings reason)
  | none => .ok ()

/-- How settings are decoded. -/
def shape : Shape BrokerSettings where
  title := "struct BrokerSettings"
  blank := default
  fields :=
    [.optional "idleTtlMs" Node.word64 fun v s => { s with idleTtl := v },
      .optional "sweepIntervalMs" Node.word64 fun v s => { s with sweepInterval := v },
      .optional "sshConnectTimeoutMs" Node.word64 fun v s => { s with sshConnectTimeout := v }]

/-- The value of settings. -/
def toJson (s : BrokerSettings) : Json :=
  .object
    [("idleTtlMs", .ofWord64 s.idleTtl), ("sweepIntervalMs", .ofWord64 s.sweepInterval),
      ("sshConnectTimeoutMs", .ofWord64 s.sshConnectTimeout)]

end BrokerSettings

end ConnectionBroker
