import ConnectionBroker.Broker.State

/-!
# The steps of the broker

`Broker.step` is what happens to a broker at a time, caused by an `Event` : a caller asks for
something, the connector, the system or the factory answers a construction, a service is closed, a
call goes on. An event that cannot happen now changes nothing, so every list of events is a run
(`Broker.run`).

Nobody but the broker closes what it holds. A tunnel that nobody holds any more closes itself, at
once or, if the last to hold it is a user, later.
-/

namespace ConnectionBroker

namespace Broker

/-- What can happen to a broker. -/
inductive Event where
  /-- A caller asks for the service of a request. -/
  | getService (r : Request)
  /-- A caller asks to close the service of a request. -/
  | closeService (r : Request)
  /-- A caller uses the cache, for anything but getting a service. -/
  | operate (op : Operation)
  /-- The sweeper is started in place of the one before. -/
  | startSweeper
  /-- The sweeper begins a sweep, if one is due. -/
  | tick
  /-- The connector has opened the session that a construction waits for, or has failed. -/
  | connected (id : CallId) (r : Except BrokerError SessionTraits)
  /-- The local port that a construction waits for is there, or cannot be had. -/
  | listening (id : CallId) (r : Except ListenFailure UInt16)
  /-- The factory has built the service that a construction waits for, or has failed. -/
  | created (id : CallId) (r : Except BrokerError Unit)
  /-- The service that the call has told to close is closed. -/
  | serviceClosed (id : CallId)
  /-- A waiting call looks again. -/
  | wake (id : CallId)
  /-- A tunnel that nobody holds any more closes itself. -/
  | drop (tunnel : TunnelId)
  /-- The clock moves on. -/
  | clock (t : Nat)
  /-- A session is cut off. -/
  | sever (session : SessionId)
  /-- Something happens behind a tunnel. -/
  | forward (tunnel : TunnelId) (e : Forwarding.Event)
  /-- The keys of the cache are put in another order. -/
  | reorder (rows : List (Fingerprint × SlotId))

/-- Changes the cache and leaves the constructions alone. -/
def setCache (b : Broker) (cache : Cache) : Broker :=
  { b with supply := { b.supply with cache } }

/-- Goes on with a call; a construction that it begins is begun. -/
def resume (b : Broker) (id : CallId) (e : Cache.Event) : Broker :=
  { b with supply := b.supply.apply supplier id e }

/-- A construction gets its answer. -/
def answer (b : Broker) (id : CallId) (a : Construction.Answer) : Broker :=
  { b with supply := b.supply.answer supplier id a }

/-- The connector answers the construction of a call, if that waits for a session. -/
def connected (b : Broker) (id : CallId) (r : Except BrokerError SessionTraits) : Broker :=
  match (b.supply.build? id).bind Construction.target? with
  | none => b
  | some target =>
    match r with
    | .ok traits =>
      let (s, net) := b.cache.net.openSession target traits
      (b.setCache (b.cache.setWorld net)).answer id (.session (.ok s))
    | .error e => b.answer id (.session (.error e))

/-- The tunnels that the broker holds. -/
def heldTunnels (b : Broker) : List TunnelId :=
  b.supply.heldTunnels Construction.tunnel? []

/-- A tunnel closes itself unless the broker holds it. -/
def drop (b : Broker) (t : TunnelId) : Broker :=
  if b.heldTunnels.contains t then b
  else b.setCache (b.cache.setWorld (b.cache.net.closeTunnel t))

/-- The broker after a call has begun, if its request is accepted. -/
def accepted (b : Broker) : Except BrokerError (CallId × Broker) → Broker
  | .ok (_, b) => b
  | .error _ => b

/-- One step. -/
def step (b : Broker) : Event → Broker
  | .getService r => b.accepted (b.getService r)
  | .closeService r => b.accepted (b.closeService r)
  | .operate (.get _) => b
  | .operate op => b.setCache (b.cache.call op).2
  | .startSweeper => b.startSweeper
  | .tick => b.setCache b.cache.tick
  | .connected id r => b.connected id r
  | .listening id r => b.answer id (.localPort r)
  | .created id r => b.answer id (.service r)
  | .serviceClosed id => b.resume id (.serviceClosed id)
  | .wake id => b.resume id (.wake id)
  | .drop t => b.drop t
  | .clock t => b.setCache (b.cache.step (.clock t))
  | .sever s => b.setCache (b.cache.step (.sever s))
  | .forward t e => b.setCache (b.cache.step (.forward t e))
  | .reorder rows => b.setCache (b.cache.step (.reorder rows))

/-- The state after some events. -/
def run (b : Broker) (events : List Event) : Broker :=
  events.foldl step b

/-- The service that the factory returns in a step. -/
def returned? (b : Broker) : Event → Option ServiceId
  | .created id (.ok _) =>
    match b.supply.build? id with
    | some (.service _ _ s) => some s
    | _ => none
  | _ => none

end Broker

end ConnectionBroker
