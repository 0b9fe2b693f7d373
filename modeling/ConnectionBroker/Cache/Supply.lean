import ConnectionBroker.Cache.Step

/-!
# A cache and its supplier

A `Supplier` says how services are built: what a build first waits for, and how it goes on with
the answer. A `Supplied` cache is a cache together with its builds in progress. Whenever a call
gets the right to build, its build begins in the same step; when the build comes to its end, so
does the factory call that the cache waits for.
-/

namespace ConnectionBroker

/-- What a build comes to after an answer. -/
inductive Progress (κ : Type) where
  /-- It waits for another answer. -/
  | waiting (build : κ)
  | ended (b : Cache.Built)

/-- How services are built: `ρ` says what is wanted, `κ` is a build that waits for an answer, and
`α` is an answer. -/
structure Supplier (ρ κ α : Type) where
  /-- Begins a build for a key, for a call that has begun so many builds before. -/
  begin : Fingerprint → ρ → Nat → Network → κ × Network
  /-- Goes on with an answer. -/
  resume : κ → α → Network → Progress κ × Network

/-- What a call wants built, and how far that is. -/
structure Order (ρ κ : Type) where
  wanted : ρ
  /-- The builds begun for this call. -/
  begun : Nat
  /-- The build in progress. -/
  build : Option κ

/-- A cache with the builds that are in progress. -/
structure Supplied (ρ κ : Type) where
  cache : Cache
  orders : List (CallId × Order ρ κ)

namespace Supplied

variable {ρ κ α : Type}

/-- A cache with nothing in it. -/
def new (ttl : Nat) : Supplied ρ κ :=
  ⟨.new ttl, []⟩

/-- What a call wants built. -/
def order? (s : Supplied ρ κ) (id : CallId) : Option (Order ρ κ) :=
  s.orders.lookup id

/-- The build that a call has in progress. -/
def build? (s : Supplied ρ κ) (id : CallId) : Option κ :=
  (s.order? id).bind (·.build)

/-- Changes what is known of a call's builds. -/
def setOrder (s : Supplied ρ κ) (id : CallId) (o : Order ρ κ) : Supplied ρ κ :=
  { s with orders := s.orders.map fun row => if row.1 == id then (id, o) else row }

/-- Begins the build of a call that has got the right to. -/
def supply (f : Supplier ρ κ α) (s : Supplied ρ κ) (id : CallId) : Supplied ρ κ :=
  match s.cache.activity? id, s.order? id with
  | some (.getting key _ (.building _)), some ⟨wanted, begun, none⟩ =>
    let (build, net) := f.begin key wanted begun s.cache.net
    ({ s with cache := s.cache.setWorld net }).setOrder id ⟨wanted, begun + 1, some build⟩
  | _, _ => s

/-- A `get` begins. -/
def get (f : Supplier ρ κ α) (s : Supplied ρ κ) (key : Fingerprint) (wanted : ρ) :
    CallId × Supplied ρ κ :=
  let (id, cache) := s.cache.call (.get key)
  (id, supply f { s with cache, orders := s.orders ++ [(id, ⟨wanted, 0, none⟩)] } id)

/-- Something else happens to the cache; `id` is the call concerned. -/
def apply (f : Supplier ρ κ α) (s : Supplied ρ κ) (id : CallId) (e : Cache.Event) :
    Supplied ρ κ :=
  supply f { s with cache := s.cache.step e } id

/-- The answer that a build waits for has come. -/
def answer (f : Supplier ρ κ α) (s : Supplied ρ κ) (id : CallId) (a : α) : Supplied ρ κ :=
  match s.order? id with
  | some ⟨wanted, begun, some build⟩ =>
    match f.resume build a s.cache.net with
    | (.waiting build, net) =>
      ({ s with cache := s.cache.setWorld net }).setOrder id ⟨wanted, begun, some build⟩
    | (.ended b, net) =>
      let s := s.setOrder id ⟨wanted, begun, none⟩
      supply f { s with cache := (s.cache.setWorld net).built id b } id
  | _ => s

/-- A call is cancelled, and the build that it has in progress with it. -/
def abort (s : Supplied ρ κ) (id : CallId) : Supplied ρ κ :=
  let s := { s with cache := s.cache.abort id }
  match s.order? id with
  | some ⟨wanted, begun, _⟩ => s.setOrder id ⟨wanted, begun, none⟩
  | none => s

end Supplied

/-! ## Who holds what -/

namespace Cache

/-- The entries that a call still has to do with. -/
def entriesOf (c : Cache) (a : Activity) : List EntryId :=
  a.releasing?.toList ++ (a.slot?.bind c.ready?).toList ++ a.claimed ++ a.drained.filterMap c.ready?

/-- The entries that the map or a call holds. -/
def heldEntries (c : Cache) : List EntryId :=
  c.current.filterMap (fun row => c.ready? row.2) ++
    c.calls.flatMap fun call => c.entriesOf call.activity

/-- The tunnel of an entry. -/
def tunnelOf? (c : Cache) (e : EntryId) : Option TunnelId :=
  match (c.entries[e]?).map fun entry => entry.resource.hop with
  | some (Hop.tunnel t) => some t
  | _ => none

end Cache

namespace Supplied

variable {ρ κ : Type}

/-- The tunnels that are held by an entry or by a build; `tunnel?` is the one that a build has, and
`others` are entries that are held from outside. -/
def heldTunnels (tunnel? : κ → Option TunnelId) (others : List EntryId) (s : Supplied ρ κ) :
    List TunnelId :=
  (s.cache.heldEntries ++ others).filterMap s.cache.tunnelOf? ++
    s.orders.filterMap fun row => row.2.build.bind tunnel?

end Supplied

end ConnectionBroker
