import ConnectionBroker.Error
import ConnectionBroker.Network.Session
import ConnectionBroker.Text.Quoted
import ConnectionBroker.Tunnel.Forwarding

/-!
# The life of a tunnel

A `Tunnel` listens on a local port and forwards every connection made there to one remote
endpoint through an SSH session. It is started at most once: `Tunnel.begin` claims the start,
`Tunnel.connected` takes the session and `Tunnel.listening` the local port. Between these steps
anything may happen, `Tunnel.close` included; the session of a start that was overtaken is closed
by that start. A closed tunnel stays closed.

The functions here change the tunnel and say which session has to be closed with the change.
-/

namespace ConnectionBroker

/-- Where a tunnel is in its life. -/
inductive TunnelState where
  | created
  | starting
  | started
  | closed
  deriving DecidableEq, Repr

/-- The name of a state in descriptions. -/
def TunnelState.name : TunnelState → String
  | created => "Created"
  | starting => "Starting"
  | started => "Started"
  | closed => "Closed"

/-- The host that tunnels listen on. -/
def localBindHost : String := "127.0.0.1"

/-- Why no local port could be listened on. -/
inductive ListenFailure where
  /-- The port could not be bound. -/
  | bind (e : Errno)
  /-- The number of the bound port could not be read. -/
  | address (e : Errno)
  deriving DecidableEq, Repr

/-- The wording of a failure to listen. -/
def ListenFailure.message : ListenFailure → String
  | bind e => "failed to listen on local port: " ++ e.message
  | address e => "failed to read local address: " ++ e.message

/-- A local port that forwards to a remote endpoint through an SSH session. -/
structure Tunnel where
  target : SshTarget
  remoteHost : String
  remotePort : UInt16
  state : TunnelState
  localPort : Option UInt16
  /-- The session in use. -/
  session : Option SessionId
  /-- The accept loop can still be told to stop. -/
  stopper : Bool
  forwarding : Forwarding
  deriving DecidableEq, Repr

namespace Tunnel

/-- A tunnel to a remote endpoint, not started. -/
def new (target : SshTarget) (remoteHost : String) (remotePort : UInt16) : Tunnel :=
  { target, remoteHost, remotePort
    state := .created
    localPort := none
    session := none
    stopper := false
    forwarding := .start remoteHost remotePort }

/-- The remote endpoint. -/
def remoteAddress (t : Tunnel) : String :=
  hostAndPort t.remoteHost t.remotePort

/-- Claims the start of a tunnel that was never started nor closed. -/
def begin (t : Tunnel) : Except BrokerError Unit × Tunnel :=
  match t.state with
  | .created => (.ok (), { t with state := .starting })
  | .closed => (.error (.tunnelStartFailed "tunnel is closed"), t)
  | .starting => (.error (.tunnelStartFailed "tunnel already started"), t)
  | .started => (.error (.tunnelStartFailed "tunnel already started"), t)

/-- The error of a start that got no session. -/
def connectError (e : BrokerError) : BrokerError :=
  .tunnelStartFailed ("failed to create ssh client: " ++ e.message)

/-- Takes the session that the start was waiting for, or gives the start up. -/
def connected (t : Tunnel) : Except BrokerError SessionId → Except BrokerError SessionId × Tunnel
  | .ok s => (.ok s, t)
  | .error e => (.error (connectError e), { t with state := .closed })

/-- What a start comes to at its end: its answer, the tunnel, and the session to be closed. -/
structure Started where
  answer : Except BrokerError UInt16
  tunnel : Tunnel
  orphan : Option SessionId

/-- Takes the local port and ends the start. -/
def listening (t : Tunnel) (s : SessionId) : Except ListenFailure UInt16 → Started
  | .error e => ⟨.error (.tunnelStartFailed e.message), { t with state := .closed }, some s⟩
  | .ok port =>
    if t.state = .closed then
      ⟨.error (.tunnelStartFailed "tunnel closed during start"), t, some s⟩
    else
      ⟨.ok port,
        { t with state := .started, localPort := some port, session := some s, stopper := true },
        none⟩

/-- Closes the tunnel: the accept loop is told to stop, and the session is to be closed. Nothing
is left to do for a tunnel that is closed already. -/
def close (t : Tunnel) : Tunnel × Option SessionId :=
  if t.state = .closed then (t, none)
  else
    ({ t with
        state := .closed
        session := none
        stopper := false
        forwarding := if t.stopper then t.forwarding.stop else t.forwarding },
      t.session)

/-- Something happens behind the tunnel. Only a started tunnel has an accept loop; what that loop
started goes on when the tunnel is closed. -/
def forward (t : Tunnel) (e : Forwarding.Event) : Tunnel :=
  if t.localPort.isSome then { t with forwarding := t.forwarding.step e } else t

/-- The session whose life decides whether the tunnel is alive; none if it is not alive
anyway. -/
def vitalSession (t : Tunnel) : Option SessionId :=
  if t.state = .started ∧ t.forwarding.dead = false then t.session else none

/-- The pairs that relay. -/
def activeConnections (t : Tunnel) : Nat :=
  t.forwarding.active

/-- The tunnel in a description, with the local port as it is to be shown. -/
def describe (t : Tunnel) (showPort : UInt16 → String) : String :=
  let localPort :=
    match t.localPort with
    | some port => "Some(" ++ showPort port ++ ")"
    | none => "None"
  "Tunnel \x7b ssh: " ++ Text.quote t.target.address ++ ", remote: " ++
    Text.quote t.remoteAddress ++ ", state: " ++ t.state.name ++ ", local_port: " ++ localPort ++
    " \x7d"

end Tunnel

end ConnectionBroker
