import ConnectionBroker.Broker.Construction

/-!
# The broker

A `Broker` hands out services: it checks a request, selects its key and strategy, and gets the
service from its cache, where it is built on first use. Everything that happens to a broker
between two waits of its calls is one of the functions here.
-/

namespace ConnectionBroker

/-- A broker with its cache and the constructions in progress. -/
structure Broker where
  settings : BrokerSettings
  table : StrategyTable
  supply : Supplied (Request × Strategy) Construction

namespace Broker

/-- How the broker builds what is wanted. -/
def supplier : Supplier (Request × Strategy) Construction Construction.Answer where
  begin := fun _ wanted _ n => Construction.start wanted.1 wanted.2 n
  resume := Construction.resume

/-- A broker with nothing in its cache. -/
def new (settings : BrokerSettings) (table : StrategyTable) : Broker :=
  ⟨settings, table, .new settings.idleTtl.toNat⟩

/-- The broker's cache. -/
def cache (b : Broker) : Cache :=
  b.supply.cache

/-- The key and the strategy of a request. -/
def select (b : Broker) (r : Request) : Except BrokerError Selection :=
  Selection.select b.table r.config r.target

/-- A caller asks for the service of a request. -/
def getService (b : Broker) (r : Request) : Except BrokerError (CallId × Broker) := do
  let selection ← b.select r
  let (id, supply) := b.supply.get supplier selection.fingerprint (r, selection.strategy)
  return (id, { b with supply })

/-- A caller asks to close the service of a request. -/
def closeService (b : Broker) (r : Request) : Except BrokerError (CallId × Broker) := do
  let selection ← b.select r
  let (id, cache) := b.cache.call (.close selection.fingerprint)
  return (id, { b with supply := { b.supply with cache } })

/-- Starts to sweep at the interval of the settings. -/
def startSweeper (b : Broker) : Broker :=
  { b with supply :=
      { b.supply with cache := b.cache.spawnSweeper b.settings.sweepInterval.toNat } }

/-- The number of services in the cache. -/
def cachedServices (b : Broker) : Nat :=
  b.cache.size

end Broker

end ConnectionBroker
