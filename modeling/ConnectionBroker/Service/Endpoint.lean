import ConnectionBroker.Network.Session
import ConnectionBroker.Selection.Strategy
import ConnectionBroker.Text.Quoted

/-!
# Service endpoints

An `Endpoint` is where and how a factory should connect: a config, which for local forwarding
already points at the local end of the tunnel, and a dialler if every connection has to be opened
through an SSH session.
-/

namespace ConnectionBroker

/-- An SSH session that connections are opened through. -/
structure Dialer where
  session : SessionId
  /-- The login at the SSH host. -/
  login : String
  deriving DecidableEq, Repr

namespace Dialer

/-- How a dialler is named in descriptions. -/
def describe (d : Dialer) : String :=
  "#" ++ toString d.session ++ " " ++ d.login

end Dialer

/-- Where and how a factory should connect. -/
structure Endpoint where
  config : ConnectionConfig
  strategy : Strategy
  dialer : Option Dialer
  deriving DecidableEq, Repr

namespace Endpoint

/-- An endpoint that is connected to without a dialler. -/
def direct (config : ConnectionConfig) (strategy : Strategy) : Endpoint :=
  ⟨config, strategy, none⟩

/-- An endpoint that is reached through the channels of a session. -/
def overChannel (config : ConnectionConfig) (dialer : Dialer) : Endpoint :=
  ⟨config, .channelDial, some dialer⟩

/-- The address without the local port of a tunnel, which the system chose. -/
def stableAddress (e : Endpoint) : String :=
  match e.strategy with
  | .localForward => e.config.host ++ ":LOCAL"
  | _ => e.config.address

/-- What a factory is asked for, on one line. -/
def summary (e : Endpoint) : String :=
  String.intercalate "|"
    [e.config.engine, e.stableAddress, e.strategy.name, e.config.dsnAppend,
      match e.dialer with
      | some d => d.describe
      | none => "-"]

/-- The endpoint in a description. -/
def describe (e : Endpoint) : String :=
  let dialer :=
    match e.dialer with
    | some d => "Some(" ++ Text.quote d.describe ++ ")"
    | none => "None"
  "ServiceEndpoint \x7b engine: " ++ Text.quote e.config.engine ++ ", address: " ++
    Text.quote e.config.address ++ ", strategy: " ++ e.strategy.constructorName ++
    ", dialer: " ++ dialer ++ " \x7d"

end Endpoint

end ConnectionBroker
