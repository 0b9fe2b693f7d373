import ConnectionBroker.Network.Happening
import ConnectionBroker.Tunnel.Lifecycle

/-!
# The world around the broker

A `Network` holds the time, every session, tunnel and service there ever was, by number, and the
log of what happened to them. Each operation here is one short step: it changes one row and adds
to the log what can be seen of it.
-/

namespace ConnectionBroker

/-- A service, as far as the world around the broker knows it. -/
structure Service where
  /-- The address that it shows. -/
  address : String
  /-- How long closing it takes. -/
  closeDelay : Nat
  deriving DecidableEq, Repr

/-- The network hop that a service was built over. -/
inductive Hop where
  | direct
  /-- A session through whose channels the service dials. -/
  | channel (session : SessionId)
  /-- A tunnel whose local port the service connects to. -/
  | tunnel (tunnel : TunnelId)
  deriving DecidableEq, Repr

/-- The name of the kind of hop. -/
def Hop.kind : Hop → String
  | direct => "direct"
  | channel _ => "channel"
  | tunnel _ => "tunnel"

/-- The world around the broker. -/
structure Network where
  now : Nat
  sessions : List Session
  tunnels : List Tunnel
  services : List Service
  /-- What happened and when, latest first. -/
  log : List (Nat × Happening)
  deriving DecidableEq, Repr

namespace Network

/-- Nothing there yet, at time zero. -/
def empty : Network :=
  ⟨0, [], [], [], []⟩

/-- Adds to the log. -/
def record (n : Network) (h : Happening) : Network :=
  { n with log := (n.now, h) :: n.log }

/-- The clock moves on; it never goes back. -/
def setClock (n : Network) (t : Nat) : Network :=
  { n with now := max n.now t }

/-! ## Sessions -/

/-- A session is opened. -/
def openSession (n : Network) (target : SshTarget) (traits : SessionTraits) :
    SessionId × Network :=
  (n.sessions.length, { n with sessions := n.sessions ++ [.fresh target traits] })

/-- A session is closed, not for the first time perhaps. -/
def closeSession (n : Network) (s : SessionId) : Network :=
  { n.record (.closeSession s) with sessions := n.sessions.modify s Session.close }

/-- Closes a session if there is one. -/
def closeAny (n : Network) : Option SessionId → Network
  | some s => n.closeSession s
  | none => n

/-- A session is cut off. -/
def sever (n : Network) (s : SessionId) : Network :=
  { n with sessions := n.sessions.modify s Session.sever }

/-- Asks a session whether it is alive. -/
def checkSession (n : Network) (s : SessionId) : Bool × Network :=
  match n.sessions[s]? with
  | some session =>
    let (alive, session) := session.check n.now
    (alive, { n with sessions := n.sessions.set s session })
  | none => (false, n)

/-! ## Tunnels -/

/-- A tunnel is made. -/
def addTunnel (n : Network) (t : Tunnel) : TunnelId × Network :=
  (n.tunnels.length, { n with tunnels := n.tunnels ++ [t] })

/-- Puts a tunnel in its place. -/
def setTunnel (n : Network) (i : TunnelId) (t : Tunnel) : Network :=
  { n with tunnels := n.tunnels.set i t }

/-- The error of a tunnel that does not exist. -/
def noTunnel : BrokerError :=
  .tunnelStartFailed "no such tunnel"

/-- Claims the start of a tunnel. -/
def beginTunnel (n : Network) (i : TunnelId) : Except BrokerError Unit × Network :=
  match n.tunnels[i]? with
  | some t =>
    let (answer, t) := t.begin
    (answer, n.setTunnel i t)
  | none => (.error noTunnel, n)

/-- A tunnel takes the session that its start was waiting for. -/
def tunnelConnected (n : Network) (i : TunnelId) (r : Except BrokerError SessionId) :
    Except BrokerError SessionId × Network :=
  match n.tunnels[i]? with
  | some t =>
    let (answer, t) := t.connected r
    (answer, n.setTunnel i t)
  | none => (.error noTunnel, n)

/-- A tunnel takes the local port that its start was waiting for. -/
def tunnelListening (n : Network) (i : TunnelId) (s : SessionId)
    (r : Except ListenFailure UInt16) : Except BrokerError UInt16 × Network :=
  match n.tunnels[i]? with
  | some t =>
    let started := t.listening s r
    (started.answer, (n.setTunnel i started.tunnel).closeAny started.orphan)
  | none => (.error noTunnel, n)

/-- A tunnel is closed, and its session with it. -/
def closeTunnel (n : Network) (i : TunnelId) : Network :=
  match n.tunnels[i]? with
  | some t =>
    let (t, session) := t.close
    (n.setTunnel i t).closeAny session
  | none => n

/-- Asks a tunnel whether it is alive. -/
def checkTunnel (n : Network) (i : TunnelId) : Bool × Network :=
  match n.tunnels[i]?.bind Tunnel.vitalSession with
  | some s => n.checkSession s
  | none => (false, n)

/-- Accepts a tunnel that is alive. -/
def ensureTunnel (n : Network) (i : TunnelId) : Except BrokerError Unit × Network :=
  let (alive, n) := n.checkTunnel i
  if alive then (.ok (), n)
  else
    let address := (n.tunnels[i]?.map Tunnel.remoteAddress).getD ""
    (.error (.tunnelDead address), n)

/-! ## Hops -/

/-- Asks a hop whether it is alive. -/
def checkHop (n : Network) : Hop → Bool × Network
  | .direct => (true, n)
  | .channel s => n.checkSession s
  | .tunnel t => n.checkTunnel t

/-- A hop is closed. -/
def closeHop (n : Network) : Hop → Network
  | .direct => n
  | .channel s => n.closeSession s
  | .tunnel t => n.closeTunnel t

/-! ## Services -/

/-- A service that is asked for gets its number. -/
def addService (n : Network) (address : String) : ServiceId × Network :=
  (n.services.length, { n with services := n.services ++ [⟨address, 0⟩] })

/-- Sets how long closing a service takes. -/
def setCloseDelay (n : Network) (s : ServiceId) (delay : Nat) : Network :=
  { n with services := n.services.modify s fun service => { service with closeDelay := delay } }

/-- A service is told to close. -/
def closeService (n : Network) (s : ServiceId) : Network :=
  n.record (.closeService s)

/-- How long closing a service takes. -/
def closeDelay (n : Network) (s : ServiceId) : Nat :=
  match n.services[s]? with
  | some service => service.closeDelay
  | none => 0

/-- A session is asked for. -/
def askSession (n : Network) (target : SshTarget) : Network :=
  n.record (.connect target)

/-- A service is asked for under a key. -/
def askBuild (n : Network) (key : String) : ServiceId × Network :=
  let (s, n) := n.addService key
  (s, n.record (.build s key))

/-- A service is asked for at an endpoint. -/
def askService (n : Network) (e : Endpoint) : ServiceId × Network :=
  let (s, n) := n.addService e.stableAddress
  (s, n.record (.create s e))

end Network

end ConnectionBroker
