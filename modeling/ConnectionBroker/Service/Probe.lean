import ConnectionBroker.Service.Endpoint

/-!
# Probes

A `Probe` is a service that only shows that its endpoint can be reached: it keeps one connection
open until it is closed, and speaks no protocol.
-/

namespace ConnectionBroker

/-- A service that only keeps one connection open. -/
structure Probe where
  endpoint : Endpoint
  connected : Bool
  deriving DecidableEq, Repr

namespace Probe

/-- A probe whose connection was opened. -/
def ofEndpoint (e : Endpoint) : Probe :=
  ⟨e, true⟩

/-- The probe without its connection. Closing it again changes nothing. -/
def close (p : Probe) : Probe :=
  { p with connected := false }

/-- What a probe tells about itself. -/
structure Info where
  engine : String
  address : String
  strategy : String
  connected : Bool
  deriving DecidableEq, Repr

/-- What a probe tells about itself, with its address as it is to be shown. -/
def info (p : Probe) (address : String) : Info :=
  ⟨p.endpoint.config.engine, address, p.endpoint.strategy.name, p.connected⟩

end Probe

end ConnectionBroker
