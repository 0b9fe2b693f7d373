import ConnectionBroker.Simulation.Script
import ConnectionBroker.Simulation.Transcript

/-!
# Scenarios for endpoints

An endpoint by itself: how it is described, and what comes back on a connection to it.
-/

namespace ConnectionBroker.Simulation.EndpointScenario

/-- What is to be seen of an endpoint. -/
structure View where
  endpoint : Endpoint
  /-- What came back on a connection, if one was asked for. -/
  connected : Option (Except BrokerError (Option String))
  events : List String

/-- What is sent on a connection. -/
def greeting : String := "ping"

/-- Looks at an endpoint: one through a session that behaves like this, or one without. -/
def view (config : ConnectionConfig) (session : Option SessionTraits) (strategy : Strategy)
    (connected : Bool) : View :=
  let (e, n) : Endpoint × Network :=
    match session with
    | some traits =>
      let target := ScriptedBuild.target
      let (s, n) := Network.empty.openSession target traits
      (.overChannel config ⟨s, target.login⟩, n)
    | none => (.direct config strategy, .empty)
  if connected then
    let (r, n) := connect e n
    ⟨e, some (r.map fun mode => reply mode greeting), Transcript.lines n.log.reverse⟩
  else ⟨e, none, Transcript.lines n.log.reverse⟩

end ConnectionBroker.Simulation.EndpointScenario
