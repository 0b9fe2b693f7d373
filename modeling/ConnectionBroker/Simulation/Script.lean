import ConnectionBroker.Broker.State

/-!
# Scripts

What the world around the broker does in a simulation: how long it takes to open a session or to
build a service, and whether that succeeds. A local port is always to be had; a connection that is
not dialled through a session finds no route.
-/

namespace ConnectionBroker.Simulation

/-- What becomes of a session that is asked for. -/
structure ConnectorScript where
  fail : Option BrokerError
  delay : Nat
  traits : SessionTraits

instance : Inhabited ConnectorScript := ⟨⟨none, 0, .lasting⟩⟩

/-- What becomes of a service that is asked for at an endpoint. -/
structure FactoryScript where
  fail : Option BrokerError
  delay : Nat
  /-- How long closing the service takes. -/
  closeDelay : Nat
  /-- A connection to the endpoint is opened first. -/
  connect : Bool

instance : Inhabited FactoryScript := ⟨⟨none, 0, 0, false⟩⟩

/-- The kinds of hop that a scripted build can have. -/
inductive HopScript where
  | direct
  | channel
  /-- A tunnel, started or not. -/
  | tunnel (started : Bool)
  deriving DecidableEq, Repr

/-- What becomes of a service that is asked for under a key. -/
structure BuildScript where
  delay : Nat
  panic : Bool
  fail : Option BrokerError
  closeDelay : Nat
  hop : HopScript
  traits : SessionTraits
  /-- The error of the session that the hop needs. -/
  connectFail : Option BrokerError

instance : Inhabited BuildScript := ⟨⟨0, false, none, 0, .direct, .lasting, none⟩⟩

/-- The session that a script provides, when its time has come. -/
def ConnectorScript.answer (script : ConnectorScript) (target : SshTarget) (n : Network) :
    Except BrokerError SessionId × Network :=
  match script.fail with
  | some e => (.error e, n)
  | none =>
    let (s, n) := n.openSession target script.traits
    (.ok s, n)

/-! ## Connections -/

/-- A stream is dialled through a session: its mode, if it can be had. -/
def dial (s : SessionId) (host : String) (port : UInt16) (n : Network) :
    Except BrokerError DialMode × Network :=
  let n := n.record (.dial s host)
  match n.sessions[s]? with
  | some session =>
    if session.intact then
      match session.dial with
      | .fail =>
        (.error (.transport ("dial " ++ hostAndPort host port ++ ": refused")), n)
      | mode => (.ok mode, n)
    else (.error (.transport "session closed"), n)
  | none => (.error (.transport "session closed"), n)

/-- A connection to an endpoint is opened, through its dialler if it has one. -/
def connect (e : Endpoint) (n : Network) : Except BrokerError DialMode × Network :=
  match e.dialer with
  | some d => dial d.session e.config.host e.config.port n
  | none =>
    let reason := "connect to " ++ e.config.address ++ " failed: " ++
      Errno.networkUnreachable.message
    (.error (.serviceConstructionFailed reason), n)

/-- What comes back for some bytes on a stream, if as many come back. -/
def reply (mode : DialMode) (sent : String) : Option String :=
  match mode with
  | .echo => some sent
  | .limit n => if sent.utf8ByteSize = n then some sent else none
  | .greet text =>
    if sent.utf8ByteSize ≤ text.utf8ByteSize then
      String.fromUTF8? (text.toUTF8.extract 0 sent.utf8ByteSize)
    else none
  | .fail => none

/-! ## Local ports -/

/-- The port that a tunnel is given. -/
def ephemeralPort (t : TunnelId) : UInt16 :=
  (40000 + t % 20000).toUInt16

/-! ## Scripted builds -/

/-- A build under a key, with its script. -/
structure ScriptedBuild where
  service : ServiceId
  script : BuildScript

namespace ScriptedBuild

/-- The target that scripted hops go through. -/
def target : SshTarget :=
  .withPassword "bastion" 22 "ops" "pw"

/-- The remote endpoint of scripted tunnels. -/
def remoteHost : String := "10.0.0.9"

/-- The port of the remote endpoint of scripted tunnels. -/
def remotePort : UInt16 := 1521

/-- The connector that opens the session of a scripted hop. -/
def connector (script : BuildScript) : ConnectorScript :=
  ⟨script.connectFail, 0, script.traits⟩

/-- The script of the next build of a call: the last one is repeated. -/
def scriptAt (scripts : List BuildScript) (begun : Nat) : BuildScript :=
  match scripts[begun]? with
  | some script => script
  | none => scripts.getLast?.getD default

/-- A tunnel is made, and started if it is to be. -/
def openTunnel (script : BuildScript) (started : Bool) (n : Network) :
    Except BrokerError TunnelId × Network :=
  let (t, n) := n.addTunnel (.new target remoteHost remotePort)
  if started then
    let (_, n) := n.beginTunnel t
    let (session, n) := (connector script).answer target (n.askSession target)
    match n.tunnelConnected t session with
    | (.error e, n) => (.error e, n)
    | (.ok s, n) =>
      let (port, n) := n.tunnelListening t s (.ok (ephemeralPort t))
      (port.map fun _ => t, n)
  else (.ok t, n)

/-- The hop of a scripted build is opened. -/
def openHop (script : BuildScript) (n : Network) : Except BrokerError Hop × Network :=
  match script.hop with
  | .direct => (.ok .direct, n)
  | .channel =>
    let (session, n) := (connector script).answer target (n.askSession target)
    (session.map Hop.channel, n)
  | .tunnel started =>
    let (tunnel, n) := openTunnel script started n
    (tunnel.map Hop.tunnel, n)

/-- What a build comes to, when its time has come. -/
def outcome (b : ScriptedBuild) (n : Network) : Cache.Built × Network :=
  if b.script.panic then (.panicked, n)
  else
    match b.script.fail with
    | some e => (.failed e, n)
    | none =>
      match openHop b.script n with
      | (.ok hop, n) =>
        (.resource ⟨b.service, hop⟩, n.setCloseDelay b.service b.script.closeDelay)
      | (.error e, n) => (.failed e, n)

/-- Services are built as the scripts of each call say. -/
def supplier : Supplier (List BuildScript) ScriptedBuild Cache.Built where
  begin := fun key scripts begun n =>
    let (s, n) := n.askBuild key.text
    (⟨s, scriptAt scripts begun⟩, n)
  resume := fun _ outcome n => (.ended outcome, n)

end ScriptedBuild

/-! ## Scripted answers to a construction -/

/-- The scripts of the connector and of the factory of a broker. -/
structure BrokerScript where
  connector : ConnectorScript
  factory : FactoryScript

namespace BrokerScript

/-- How long a construction waits. -/
def delay (script : BrokerScript) : Construction → Nat
  | .session _ _ => script.connector.delay
  | .tunnelSession _ _ _ => script.connector.delay
  | .localPort _ _ _ => 0
  | .service _ _ _ => script.factory.delay

/-- What the factory answers, when its time has come. -/
def factoryAnswer (script : BrokerScript) (e : Endpoint) (s : ServiceId) (n : Network) :
    Except BrokerError Unit × Network :=
  match script.factory.fail with
  | some err => (.error err, n)
  | none =>
    let (connected, n) := if script.factory.connect then connect e n else (.ok .echo, n)
    (connected.map fun _ => (), n.setCloseDelay s script.factory.closeDelay)

/-- What a construction is answered, when its time has come. -/
def answer (script : BrokerScript) (c : Construction) (n : Network) :
    Construction.Answer × Network :=
  match c with
  | .session _ target =>
    let (r, n) := script.connector.answer target n
    (.session r, n)
  | .tunnelSession _ target _ =>
    let (r, n) := script.connector.answer target n
    (.session r, n)
  | .localPort _ t _ => (.localPort (.ok (ephemeralPort t)), n)
  | .service _ e s =>
    let (r, n) := script.factoryAnswer e s n
    (.service r, n)

end BrokerScript

end ConnectionBroker.Simulation
