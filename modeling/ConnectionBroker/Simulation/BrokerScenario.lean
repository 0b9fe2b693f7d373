import ConnectionBroker.Service.Probe
import ConnectionBroker.Simulation.Reply

/-!
# Scenarios for the broker

A broker over a scripted connector and a scripted factory, used step by step
(`BrokerScenario.run`); and a broker whose services are probes (`BrokerScenario.probe`).
-/

namespace ConnectionBroker.Simulation.BrokerScenario

/-- A broker on a virtual clock, with the scripts of the world around it. -/
structure Scene where
  settings : BrokerSettings
  table : StrategyTable
  script : BrokerScript
  state : State (Request × Strategy) Construction

/-- How long the builds take and what comes of them. -/
def rules (script : BrokerScript) :
    Rules (Request × Strategy) Construction Construction.Answer where
  supplier := Broker.supplier
  delay := script.delay
  answer := script.answer
  tunnel? := Construction.tunnel?

/-- A scene at its beginning. -/
def begin (settings : BrokerSettings) (table : StrategyTable) (script : BrokerScript) : Scene :=
  ⟨settings, table, script, .new settings.idleTtl.toNat⟩

namespace Scene

/-- How long the builds take and what comes of them. -/
def rules (s : Scene) : Rules (Request × Strategy) Construction Construction.Answer :=
  BrokerScenario.rules s.script

/-- The broker. -/
def broker (s : Scene) : Broker :=
  ⟨s.settings, s.table, s.state.supply⟩

/-- Puts the broker in its place. -/
def setBroker (s : Scene) (b : Broker) : Scene :=
  { s with state := { s.state with supply := b.supply } }

/-- A reply and a new state. -/
def reply (s : Scene) (r : Reply × State (Request × Strategy) Construction) : Reply × Scene :=
  (r.1, { s with state := r.2 })

end Scene

/-- What the user of a broker can do in one step. -/
inductive Step where
  | connector (script : ConnectorScript)
  | factory (script : FactoryScript)
  | get (r : Request)
  /-- Several callers ask for one service at once. -/
  | getMany (n : Nat) (r : Request)
  | close (r : Request)
  | select (r : Request)
  | entry (r : Request)
  | touch (r : Request)
  /-- Closes the tunnel of a cached entry. -/
  | killTunnel (r : Request)
  | sever (session : SessionId)
  | wait (ms : Nat)
  | sweep
  | cached
  | settings
  | sweeper
  | shutdown

/-- A call that is begun, and a scene in which it waits. -/
def enter (s : Scene) (begun : Except BrokerError (CallId × Broker)) :
    Except BrokerError CallId × Scene :=
  match begun with
  | .ok (id, b) =>
    let s := s.setBroker b
    (.ok id, { s with state := s.state.proceed s.rules id })
  | .error e => (.error e, s)

/-- Waits for a call that was begun. -/
def finish (s : Scene) : Except BrokerError CallId → Reply × Scene
  | .ok id => s.reply (s.state.await s.rules id)
  | .error e => (.failed e, s)

/-- Begins to get a service several times. -/
def enterMany (r : Request) : Nat → Scene → List (Except BrokerError CallId) × Scene
  | 0, s => ([], s)
  | n + 1, s =>
    let (first, s) := enter s (s.broker.getService r)
    let (rest, s) := enterMany r n s
    (first :: rest, s)

/-- Waits for several calls, in order. -/
def finishAll : List (Except BrokerError CallId) → Scene → List Reply × Scene
  | [], s => ([], s)
  | c :: rest, s =>
    let (first, s) := finish s c
    let (replies, s) := finishAll rest s
    (first :: replies, s)

/-- Does something under the key of a request. -/
def withKey (s : Scene) (r : Request) (f : Fingerprint → Reply × Scene) : Reply × Scene :=
  match s.broker.select r with
  | .ok selection => f selection.fingerprint
  | .error e => (.failed e, s)

/-- Closes the tunnel of a key's entry, and says what a user of the tunnel then meets. -/
def killTunnel (s : Scene) (key : Fingerprint) : Reply × Scene :=
  match (s.state.cache.find? key).bind (s.state.cache.entries[·]?) with
  | none => (.nothing, s)
  | some e =>
    match e.resource.hop with
    | .tunnel t =>
      let (ensured, net) := (s.state.net.closeTunnel t).ensureTunnel t
      let reply : Reply :=
        match ensured with
        | .ok () => .nothing
        | .error e => .failed e
      (reply, { s with state := s.state.setNet net })
    | hop => (.text hop.kind, s)

/-- One step. -/
def step (s : Scene) : Step → Reply × Scene
  | .connector script => (.flag true, { s with script := { s.script with connector := script } })
  | .factory script => (.flag true, { s with script := { s.script with factory := script } })
  | .get r =>
    let (call, s) := enter s (s.broker.getService r)
    finish s call
  | .getMany n r =>
    let (calls, s) := enterMany r n s
    let ids := calls.filterMap fun c => c.toOption
    let s := { s with state := s.state.join s.rules ids }
    let (replies, s) := finishAll calls s
    (.list replies, s)
  | .close r =>
    let (call, s) := enter s (s.broker.closeService r)
    finish s call
  | .select r =>
    match s.broker.select r with
    | .ok selection => (.selection selection, s)
    | .error e => (.failed e, s)
  | .entry r => withKey s r fun key => s.reply (s.state.showKey key)
  | .touch r => withKey s r fun key => s.reply (s.state.showOperation s.rules (.touch key))
  | .killTunnel r => withKey s r (killTunnel s)
  | .sever session => s.reply (s.state.sever session)
  | .wait ms => s.reply (s.state.showWait s.rules ms)
  | .sweep => s.reply (s.state.showOperation s.rules .sweep)
  | .cached => (.cached s.broker.cachedServices, s)
  | .settings => (.settings s.settings, s)
  | .sweeper =>
    let s := s.setBroker s.broker.startSweeper
    (.flag true, { s with state := s.state.tidy s.rules })
  | .shutdown => s.reply (s.state.showOperation s.rules .shutdown)

/-- What the steps show. -/
def run (s : Scene) (steps : List Step) : List (Shown Reply) :=
  runSteps (fun s => s.state.net.log) step s steps

/-! ## Probes -/

/-- What a probe shows while it is used: how it looks, whether closing its service released
something, how it looks after that, whether closing it again did, what is left in the cache, and
what happened to sessions. -/
structure ProbeReport where
  before : Probe.Info
  closed : Reply
  after : Probe.Info
  closedAgain : Reply
  cached : Nat
  events : List String

/-- The endpoint that a service was asked for at. -/
def endpointOf? (s : Scene) (service : ServiceId) : Option Endpoint :=
  s.state.net.log.findSome? fun e =>
    match e.2 with
    | .create id endpoint => if id = service then some endpoint else none
    | _ => none

/-- What happened to sessions, but for the streams that were dialled. -/
def sessionEvents (s : Scene) : List String :=
  Transcript.lines <| s.state.net.log.reverse.filter fun e =>
    match e.2 with
    | .connect _ => true
    | .closeSession _ => true
    | _ => false

/-- The address of a probe, without a port that the system chose. -/
def probeAddress (e : Endpoint) (systemPort : Bool) : String :=
  if systemPort || e.strategy == .localForward then e.config.host ++ ":OS" else e.config.address

/-- The port of a local listener. -/
def listenerPort : UInt16 := 49152

/-- Gets a probe from a broker, closes it, and closes it again; of a local listener, if that is
what is to be probed. -/
def probe (connector : ConnectorScript) (r : Request) (listener : Bool) :
    Except BrokerError ProbeReport :=
  let r : Request :=
    if listener then ⟨r.config.withEndpoint localBindHost listenerPort, r.target⟩ else r
  let factory : FactoryScript := { (default : FactoryScript) with connect := true }
  let s := begin .default .builtin ⟨connector, factory⟩
  match step s (.get r) with
  | (.service id _, s) =>
    match endpointOf? s id with
    | some e =>
      let p := Probe.ofEndpoint e
      let address := probeAddress e listener
      let (closed, s) := step s (.close r)
      let (closedAgain, s) := step s (.close r)
      .ok
        { before := p.info address
          closed, closedAgain
          after := p.close.info address
          cached := s.broker.cachedServices
          events := sessionEvents s }
    | none => .error (.serviceConstructionFailed "no endpoint")
  | (.failed e, _) => .error e
  | _ => .error (.serviceConstructionFailed "no service")

end ConnectionBroker.Simulation.BrokerScenario
