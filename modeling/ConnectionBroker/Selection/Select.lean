import ConnectionBroker.Selection.Fingerprint
import ConnectionBroker.Selection.Strategy

/-!
# Selection

A request, checked and turned into a cache key and a connection strategy. The key comes from the
config that the caller gave, before any endpoint of a tunnel is put into a copy of it.
-/

namespace ConnectionBroker

/-- What is selected for a request. -/
structure Selection where
  fingerprint : Fingerprint
  strategy : Strategy
  deriving DecidableEq, Repr

namespace Selection

/-- Selects for a request, with the given digest of its secrets. -/
def selectWith (digest : String → String) (table : StrategyTable) (c : ConnectionConfig)
    (ssh : Option SshTarget) : Except BrokerError Selection := do
  c.validate
  return ⟨Fingerprint.computeWith digest c ssh, table.strategyFor c.engine ssh.isSome⟩

/-- Selects for a request. -/
def select (table : StrategyTable) (c : ConnectionConfig) (ssh : Option SshTarget) :
    Except BrokerError Selection :=
  selectWith Sha256.hexDigest table c ssh

end Selection

end ConnectionBroker
