import ConnectionBroker.Network.State
import ConnectionBroker.Selection.Fingerprint

/-!
# Cache entries

An `Entry` is a built service with the hop that it depends on, kept under a key. It is stale when
it was not used for its time to live, or when its hop is dead. Whoever sets its `closed` flag has
claimed its teardown: a caller that finds it stale (`Entry.access`), a sweep (`Entry.tryExpire`)
or an explicit close (`Entry.markClosed`). Only the first of them gets the claim.

The time and the answer of the hop are arguments. The hop is asked only where `Entry.asks` says
so; elsewhere its answer does not matter.
-/

namespace ConnectionBroker

/-- A service with the hop that it depends on. -/
structure Resource where
  service : ServiceId
  hop : Hop
  deriving DecidableEq, Repr

/-- A built service in the cache. -/
structure Entry where
  key : Fingerprint
  resource : Resource
  createdAt : Nat
  lastUse : Nat
  ttl : Nat
  /-- The teardown is claimed. -/
  closed : Bool
  deriving DecidableEq, Repr

/-- What a caller meets when it wants to use an entry. -/
inductive Access where
  /-- The entry is its to use, and its idle time starts over. -/
  | touched
  /-- Someone else claimed the teardown. -/
  | closed
  /-- The entry was stale; the teardown is now the caller's. -/
  | expired
  deriving DecidableEq, Repr

namespace Entry

/-- An entry built just now. -/
def fresh (key : Fingerprint) (resource : Resource) (now ttl : Nat) : Entry :=
  ⟨key, resource, now, now, ttl, false⟩

/-- Not used for its time to live. A time before the last use counts as no time at all. -/
def isIdle (e : Entry) (now : Nat) : Bool :=
  decide (e.ttl ≤ now - e.lastUse)

/-- Idle for too long, or without a living hop. -/
def isStale (e : Entry) (now : Nat) (alive : Bool) : Bool :=
  e.isIdle now || !alive

/-- The hop's answer matters. -/
def asks (e : Entry) (now : Nat) : Bool :=
  !e.closed && !e.isIdle now

/-- Uses the entry, or claims its teardown if it is stale. -/
def access (e : Entry) (now : Nat) (alive : Bool) : Access × Entry :=
  if e.closed then (.closed, e)
  else if e.isStale now alive then (.expired, { e with closed := true })
  else (.touched, { e with lastUse := now })

/-- Claims the teardown if the entry is stale. -/
def tryExpire (e : Entry) (now : Nat) (alive : Bool) : Bool × Entry :=
  if !e.closed && e.isStale now alive then (true, { e with closed := true }) else (false, e)

/-- Claims the teardown. -/
def markClosed (e : Entry) : Bool × Entry :=
  if e.closed then (false, e) else (true, { e with closed := true })

end Entry

end ConnectionBroker
