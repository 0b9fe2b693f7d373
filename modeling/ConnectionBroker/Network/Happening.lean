import ConnectionBroker.Service.Endpoint

/-!
# Happenings

What the broker does to the world around it: the sessions it asks for, dials through and closes,
the services it has built and closes. A log of happenings is what a run of the broker looks like
from outside; `Happening.render` is the line that each of them is shown as.
-/

namespace ConnectionBroker

/-- The number of a service, in the order in which they were asked for. -/
abbrev ServiceId := Nat

/-- The number of a tunnel, in the order in which they were made. -/
abbrev TunnelId := Nat

/-- Something that the broker does to the world around it. -/
inductive Happening where
  /-- A session is asked for. -/
  | connect (target : SshTarget)
  /-- A stream is dialled through a session. -/
  | dial (session : SessionId) (host : String)
  | closeSession (session : SessionId)
  | closeService (service : ServiceId)
  /-- A service is asked for under a key. -/
  | build (service : ServiceId) (key : String)
  /-- A service is asked for at an endpoint. -/
  | create (service : ServiceId) (endpoint : Endpoint)
  deriving DecidableEq, Repr

namespace Happening

/-- A happening as a line. -/
def render : Happening → String
  | connect t => "connect:" ++ t.login ++ ":" ++ t.auth.kind
  | dial s host => "dial:" ++ toString s ++ ":" ++ host
  | closeSession s => "session:close:" ++ toString s
  | closeService s => "service:close:" ++ toString s
  | build s key => "build:" ++ toString s ++ ":" ++ key
  | create s endpoint => "create:" ++ toString s ++ ":" ++ endpoint.summary

/-- The thing that is closed, if the happening is a close. -/
def closes? : Happening → Option Nat
  | closeSession s => some s
  | closeService s => some s
  | _ => none

end Happening

end ConnectionBroker
