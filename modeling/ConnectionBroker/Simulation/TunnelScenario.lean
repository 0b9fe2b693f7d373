import ConnectionBroker.Simulation.Reply

/-!
# Scenarios for a tunnel

One tunnel over a scripted connector, used step by step. A start runs by itself as far as it can:
it waits only while the connector does, and `Scene.startWith` lets a second call in then.

No local connection ever gets through to the tunnel here, so nothing is forwarded, and no client
is there to talk to it.
-/

namespace ConnectionBroker.Simulation.TunnelScenario

/-- A tunnel in the world around it. -/
structure Scene where
  target : SshTarget
  tunnel : TunnelId
  script : ConnectorScript
  /-- The owner let the tunnel go. -/
  dropped : Bool
  net : Network

/-- A scene with a tunnel that was not started. -/
def begin (target : SshTarget) (host : String) (port : UInt16) (script : ConnectorScript) : Scene :=
  let (tunnel, net) := Network.empty.addTunnel (.new target host port)
  ⟨target, tunnel, script, false, net⟩

/-- The second call of two. -/
inductive Second where
  | close
  | start
  | state

/-- What the owner of a tunnel can do with it. -/
inductive Use where
  /-- Starts the tunnel, with or without a descriptor left for its listener. -/
  | start (descriptors : Bool)
  /-- Starts the tunnel, and does something else as soon as the start waits. -/
  | startWith (second : Second)
  | close
  | state
  | describe
  /-- Whether so many pairs relay. -/
  | active (n : Nat)
  /-- Whether the tunnel is dead after the next accept failed. -/
  | failAccept

/-- What can happen in one step. -/
inductive Step where
  | use (u : Use)
  /-- The owner lets the tunnel go. -/
  | drop
  /-- A client connects to the local port. -/
  | connect
  /-- A client does something with its connection. -/
  | client
  | hangUp
  /-- Whether the local port refuses connections. -/
  | refused
  | connector (script : ConnectorScript)
  | sever (session : SessionId)
  | dialMode (session : SessionId) (mode : DialMode)

/-- A tunnel as it looks from outside. -/
structure TunnelView where
  state : TunnelState
  localPort : Option UInt16
  alive : Bool
  /-- What somebody meets who needs the tunnel alive. -/
  ensured : Except BrokerError Unit
  remote : String

/-- What a step shows. -/
inductive Reply where
  | flag (b : Bool)
  | text (s : String)
  | done
  | failed (e : BrokerError)
  /-- The tunnel was started; whether it shows the port that the start gave. -/
  | started (samePort : Bool)
  | both (first second : Reply)
  | state (s : TunnelState)
  | view (v : TunnelView)
  | closed
  | connectionRefused
  /-- There is no such client. -/
  | noClient
  /-- The tunnel is gone. -/
  | dropped

namespace Scene

/-- The tunnel. -/
def row (s : Scene) : Tunnel :=
  (s.net.tunnels[s.tunnel]?).getD (.new s.target "" 0)

/-- Puts the world around the tunnel in its place. -/
def setNet (s : Scene) (net : Network) : Scene :=
  { s with net }

/-- Begins a start, as far as the connector. -/
def enter (s : Scene) : Except BrokerError Unit × Scene :=
  match s.net.beginTunnel s.tunnel with
  | (.ok (), net) => (.ok (), s.setNet (net.askSession s.target))
  | (.error e, net) => (.error e, s.setNet net)

/-- Ends a start: the connector answers, and the local port is listened on. -/
def finish (s : Scene) (listen : Except ListenFailure UInt16) : Except BrokerError UInt16 × Scene :=
  let (session, net) := s.script.answer s.target s.net
  match net.tunnelConnected s.tunnel session with
  | (.error e, net) => (.error e, s.setNet net)
  | (.ok id, net) =>
    let (port, net) := net.tunnelListening s.tunnel id listen
    (port, s.setNet net)

/-- The port that is to be had. -/
def freePort (s : Scene) : Except ListenFailure UInt16 :=
  .ok (ephemeralPort s.tunnel)

/-- A start from its beginning to its end. -/
def start (s : Scene) (listen : Except ListenFailure UInt16) : Except BrokerError UInt16 × Scene :=
  match s.enter with
  | (.ok (), s) => s.finish listen
  | (.error e, s) => (.error e, s)

/-- The tunnel is closed. -/
def close (s : Scene) : Scene :=
  s.setNet (s.net.closeTunnel s.tunnel)

/-- Only whether a call succeeded. -/
def outcome {α : Type} : Except BrokerError α → Reply
  | .ok _ => .done
  | .error e => .failed e

/-- The second call of two. -/
def second (s : Scene) : Second → Reply × Scene
  | .close => (.closed, s.close)
  | .start =>
    let (r, s) := s.start s.freePort
    (outcome r, s)
  | .state => (.state s.row.state, s)

/-- A start, and a second call as soon as the start waits or has ended. -/
def startWith (s : Scene) (x : Second) : Reply × Scene :=
  match s.enter with
  | (.error e, s) =>
    let (reply, s) := s.second x
    (.both (.failed e) reply, s)
  | (.ok (), s) =>
    if s.script.delay = 0 then
      let (r, s) := s.finish s.freePort
      let (reply, s) := s.second x
      (.both (outcome r) reply, s)
    else
      let (reply, s) := s.second x
      let (r, s) := s.finish s.freePort
      (.both (outcome r) reply, s)

/-- Looks at the tunnel, which asks its session twice whether it is alive. -/
def view (s : Scene) : TunnelView × Scene :=
  let (alive, net) := s.net.checkTunnel s.tunnel
  let (ensured, net) := net.ensureTunnel s.tunnel
  (⟨s.row.state, s.row.localPort, alive, ensured, s.row.remoteAddress⟩, s.setNet net)

/-- Changes a session, if there is one of that number. -/
def changeSession (s : Scene) (session : SessionId) (change : Session → Session) : Reply × Scene :=
  (.flag (decide (session < s.net.sessions.length)),
    s.setNet { s.net with sessions := s.net.sessions.modify session change })

end Scene

/-- How a local port is shown. -/
def portSign (_ : UInt16) : String := "PORT"

/-- The owner does something with the tunnel. -/
def use (s : Scene) : Use → Reply × Scene
  | .start descriptors =>
    let (r, s) := s.start (if descriptors then s.freePort else .error (.bind .noDescriptors))
    match r with
    | .ok port => (.started (s.row.localPort == some port), s)
    | .error e => (.failed e, s)
  | .startWith x => s.startWith x
  | .close => (.flag true, s.close)
  | .state =>
    let (v, s) := s.view
    (.view v, s)
  | .describe => (.text (s.row.describe portSign), s)
  | .active n => (.flag (s.row.activeConnections == n), s)
  | .failAccept =>
    let (alive, net) := s.net.checkTunnel s.tunnel
    (.flag !alive, s.setNet net)

/-- One step. -/
def step (s : Scene) : Step → Reply × Scene
  | .use u => if s.dropped then (.dropped, s) else use s u
  | .drop => (.flag true, { s.close with dropped := true })
  | .connect => (.connectionRefused, s)
  | .client => (.noClient, s)
  | .hangUp => (.flag false, s)
  | .refused => (.flag true, s)
  | .connector script => (.flag true, { s with script })
  | .sever session => s.changeSession session Session.sever
  | .dialMode session mode => s.changeSession session fun x => { x with dial := mode }

/-- What happened, but for the streams that were dialled; latest first. -/
def history (s : Scene) : List Timed :=
  s.net.log.filter fun e =>
    match e.2 with
    | .dial _ _ => false
    | _ => true

/-- What the steps show. -/
def run (s : Scene) (steps : List Step) : List (Shown Reply) :=
  runSteps history step s steps

end ConnectionBroker.Simulation.TunnelScenario
