import ConnectionBroker.Cache.Supply
import ConnectionBroker.Config.Settings
import ConnectionBroker.Selection.Select

/-!
# Building a service with its hop

How the broker builds the service of a request, by the strategy that was selected for it: at once
for a direct connection, after an SSH session is there for channel dialling, after a tunnel is
started for local forwarding. A `Construction` is such a build while it waits for a session, for
a local port or for the factory. Whatever was opened before a failure is closed before the error
is returned.
-/

namespace ConnectionBroker

/-- What a caller wants of the broker. -/
structure Request where
  config : ConnectionConfig
  target : Option SshTarget
  deriving DecidableEq, Repr

/-- A build that waits for something. -/
inductive Construction where
  /-- For the session of a channel. -/
  | session (config : ConnectionConfig) (target : SshTarget)
  /-- For the session of a tunnel. -/
  | tunnelSession (config : ConnectionConfig) (target : SshTarget) (tunnel : TunnelId)
  /-- For the local port of a tunnel. -/
  | localPort (config : ConnectionConfig) (tunnel : TunnelId) (session : SessionId)
  /-- For the factory. -/
  | service (hop : Hop) (endpoint : Endpoint) (service : ServiceId)
  deriving DecidableEq, Repr

namespace Construction

/-- What a build waits for. -/
inductive Answer where
  | session (r : Except BrokerError SessionId)
  | localPort (r : Except ListenFailure UInt16)
  /-- The factory's service is there, or it failed. -/
  | service (r : Except BrokerError Unit)

/-- The factory is asked for a service. -/
def askFactory (hop : Hop) (e : Endpoint) (n : Network) : Construction × Network :=
  let (s, n) := n.askService e
  (.service hop e s, n)

/-- Begins to build by a strategy. Without a target there is nothing to hop through. -/
def start (r : Request) (strategy : Strategy) (n : Network) : Construction × Network :=
  let config := r.config.withEngineDefaults
  match strategy, r.target with
  | .channelDial, some target => (.session config target, n.askSession target)
  | .localForward, some target =>
    let (t, n) := n.addTunnel (.new target r.config.host r.config.port)
    -- A tunnel that was just made can be started.
    let (_, n) := n.beginTunnel t
    (.tunnelSession config target t, n.askSession target)
  | _, _ => askFactory .direct (.direct config .direct) n

/-- The error of a factory as the broker returns it. -/
def factoryError : BrokerError → BrokerError
  | .serviceConstructionFailed reason => .serviceConstructionFailed reason
  | e => .serviceConstructionFailed e.message

/-- Goes on with an answer. An answer to another question changes nothing. -/
def resume (c : Construction) (a : Answer) (n : Network) : Progress Construction × Network :=
  match c, a with
  | .session config target, .session (.ok s) =>
    let (c, n) := askFactory (.channel s) (.overChannel config ⟨s, target.login⟩) n
    (.waiting c, n)
  | .session _ _, .session (.error e) => (.ended (.failed (Tunnel.connectError e)), n)
  | .tunnelSession config _ t, .session r =>
    match n.tunnelConnected t r with
    | (.ok s, n) => (.waiting (.localPort config t s), n)
    | (.error e, n) => (.ended (.failed e), n)
  | .localPort config t s, .localPort r =>
    match n.tunnelListening t s r with
    | (.ok port, n) =>
      let e := Endpoint.direct (config.withEndpoint localBindHost port) .localForward
      let (c, n) := askFactory (.tunnel t) e n
      (.waiting c, n)
    | (.error e, n) => (.ended (.failed e), n)
  | .service hop _ s, .service (.ok _) => (.ended (.resource ⟨s, hop⟩), n)
  | .service hop _ _, .service (.error e) => (.ended (.failed (factoryError e)), n.closeHop hop)
  | c, _ => (.waiting c, n)

/-- Where the session leads that a build waits for. -/
def target? : Construction → Option SshTarget
  | .session _ target => some target
  | .tunnelSession _ target _ => some target
  | .localPort _ _ _ => none
  | .service _ _ _ => none

/-- The tunnel that a build is opening or has opened. -/
def tunnel? : Construction → Option TunnelId
  | .session _ _ => none
  | .tunnelSession _ _ t => some t
  | .localPort _ t _ => some t
  | .service (.tunnel t) _ _ => some t
  | .service _ _ _ => none

end Construction

end ConnectionBroker
