import ConnectionBroker.Cache.State

/-!
# The steps of the cache

A call runs from one wait to the next without interruption; `Cache.step` is one such stretch,
caused by an `Event`: a call begins, the service that a call has told to close is closed, a build
ends, a waiting call wakes up, the sweeper's time has come. An event that cannot happen now
changes nothing, so every list of events is a run (`Cache.run`).

A `get` goes round: it sweeps, takes the slot of its key, and builds there or waits for whoever
does. What comes out is good if the slot is still the key's and its entry can be used. If the key
was closed while the entry was built, the entry is discarded and the round does not count; if the
entry is closed or stale, the round counts, and after `maxStaleRounds` of them the call gives up
(`Cache.take`). A call whose own build was stale at once gives up at once.
-/

namespace ConnectionBroker

namespace Cache

/-! ## Sweeping -/

/-- Claims the stale entries of some keys: what was claimed, and the keys to be kept. -/
def claimStale (id : CallId) : List (Fingerprint × SlotId) → Cache →
    List EntryId × List (Fingerprint × SlotId) × Cache
  | [], c => ([], [], c)
  | row :: rest, c =>
    match c.ready? row.2 with
    | none =>
      let (claimed, kept, c) := claimStale id rest c
      (claimed, row :: kept, c)
    | some e =>
      match c.tryExpire id e with
      | (true, c) =>
        let (claimed, kept, c) := claimStale id rest (c.note id (.forget row.2))
        (e :: claimed, kept, c)
      | (false, c) =>
        let (claimed, kept, c) := claimStale id rest c
        (claimed, row :: kept, c)

/-- Claims every stale entry and takes it out of the cache. -/
def expire (c : Cache) (id : CallId) : List EntryId × Cache :=
  let (claimed, kept, c) := claimStale id c.current c
  (claimed, { c with current := kept })

/-! ## The rounds of a `get` -/

/-- The error of a call that gives up on a key. -/
def deadKey (key : Fingerprint) : BrokerError :=
  .tunnelDead key.short

/-- Begins a round of a `get`: sweeps before it does something else. -/
def sweepFirst (id : CallId) (key : Fingerprint) (left : Nat) (next : Cache → Activity × Cache)
    (c : Cache) : Activity × Cache :=
  match (c.note id (.round key)).expire id with
  | ([], c) => next c
  | (e :: rest, c) => (.getting key left (.clearing e rest), c.beginRelease id e)

/-- Uses the entry of a key's slot. A stale one is taken out and released; a closed one is taken
out, and the call goes on as `again` says. -/
def use (id : CallId) (key : Fingerprint) (slot : SlotId) (e : EntryId) (builtHere : Bool)
    (left : Nat) (again : Cache → Activity × Cache) (c : Cache) : Activity × Cache :=
  match c.access id e with
  | (.touched, c) =>
    match c.entries[e]? with
    | some entry => (.ended (.service entry.resource.service), c)
    | none => (.ended (.failed (deadKey key)), c)
  | (.expired, c) =>
    (.getting key left (.evicting e builtHere), (c.forget id key slot).beginRelease id e)
  | (.closed, c) => again (c.forget id key slot)

/-- Takes the slot of a key after a sweep, with so many stale rounds left: uses what is there,
waits for whoever builds, or builds. -/
def take (id : CallId) (key : Fingerprint) : Nat → Cache → Activity × Cache
  | 0, c => (.ended (.failed (deadKey key)), c)
  | left + 1, c =>
    let (slot, c) := c.slotFor key
    match c.outcome? slot with
    | some (.ready e) =>
      c.use id key slot e false (left + 1) fun c =>
        if left = 0 then (.ended (.failed (deadKey key)), c)
        else c.sweepFirst id key left (take id key left)
    | some (.failed err) => (.ended (.failed err), c.forget id key slot)
    | none =>
      match c.builder? slot with
      | none =>
        (.getting key (left + 1) (.building slot), (c.setBuilder slot id).note id (.build slot))
      | some _ => (.getting key (left + 1) (.waiting slot), c.enqueue slot id)

/-- Begins a round. -/
def round (id : CallId) (key : Fingerprint) (left : Nat) (c : Cache) : Activity × Cache :=
  c.sweepFirst id key left (take id key left)

/-- Goes on after a stale round. -/
def staleRound (id : CallId) (key : Fingerprint) (left : Nat) (c : Cache) : Activity × Cache :=
  if left ≤ 1 then (.ended (.failed (deadKey key)), c) else c.round id key (left - 1)

/-- Looks at the outcome of a slot after waiting or building there. -/
def observe (id : CallId) (key : Fingerprint) (slot : SlotId) (builtHere : Bool) (left : Nat)
    (o : Outcome) (c : Cache) : Activity × Cache :=
  match o with
  | .failed err => (.ended (.failed err), c.forget id key slot)
  | .ready e =>
    if c.isCurrent key slot then c.use id key slot e builtHere left (staleRound id key left)
    else
      match c.markClosed id e with
      | (true, c) => (.getting key left (.discarding e), c.beginRelease id e)
      | (false, c) => c.round id key left

/-! ## The other operations -/

/-- Releases the first of the entries that a sweep claimed. -/
def releaseClaimed (id : CallId) (claimed : List EntryId) (total : Nat) (c : Cache) :
    Activity × Cache :=
  match claimed with
  | [] => (.ended (.count total), c)
  | e :: rest => (.sweeping e rest total, c.beginRelease id e)

/-- Resets the idle time of a key's entry. -/
def touch (id : CallId) (key : Fingerprint) (c : Cache) : Activity × Cache :=
  match c.current.lookup key with
  | none => (.ended (.flag false), c)
  | some slot =>
    match c.ready? slot with
    | none => (.ended (.flag false), c)
    | some e =>
      match c.access id e with
      | (.touched, c) => (.ended (.flag true), c)
      | (.closed, c) => (.ended (.flag false), c)
      | (.expired, c) => (.dropping e, (c.forget id key slot).beginRelease id e)

/-- Releases a key's entry. -/
def close (id : CallId) (key : Fingerprint) (c : Cache) : Activity × Cache :=
  let entry := (c.current.lookup key).bind c.ready?
  let c := c.withdraw id key
  match entry with
  | none => (.ended (.flag false), c)
  | some e =>
    match c.markClosed id e with
    | (true, c) => (.closing e, c.beginRelease id e)
    | (false, c) => (.ended (.flag false), c)

/-- Releases the next entry among some slots that were taken out of the cache. -/
def drain (id : CallId) : List SlotId → Nat → Cache → Activity × Cache
  | [], released, c => (.ended (.count released), c)
  | slot :: rest, released, c =>
    match c.ready? slot with
    | none => drain id rest released c
    | some e =>
      match c.markClosed id e with
      | (true, c) => (.draining e rest released, c.beginRelease id e)
      | (false, c) => drain id rest released c

/-- Releases every entry. -/
def closeAll (id : CallId) (c : Cache) : Activity × Cache :=
  drain id (c.current.map (·.2)) 0 (c.withdrawAll id)

/-! ## Cancelling -/

/-- What a call that is cancelled leaves behind in the slot where it is: the right to build goes
to the next in line. -/
def letGo (id : CallId) (c : Cache) : Activity → Cache
  | .getting _ _ (.building slot) => c.passOn slot
  | .getting _ _ (.waiting slot) =>
    if c.builder? slot = some id then c.passOn slot
    else c.updateSlot slot fun s => { s with waiting := s.waiting.erase id }
  | _ => c

/-- What a call that is cancelled had claimed stays claimed, and nobody releases it. -/
def abandon (id : CallId) (claimed : List EntryId) (c : Cache) : Cache :=
  { c with journal := c.journal ++ claimed.map fun e => (id, .abandon e) }

/-- Cancels a call unless it has ended. -/
def abort (c : Cache) (id : CallId) : Cache :=
  match c.activity? id with
  | none => c
  | some (.ended _) => c
  | some a =>
    ((letGo id c a).abandon id (a.releasing?.toList ++ a.claimed)).setActivity id (.ended .aborted)

/-- Stops the sweeper, in the middle of a sweep perhaps. -/
def stopSweeper (c : Cache) : Cache :=
  match c.sweeper with
  | none => c
  | some s =>
    let c := { c with sweeper := none }
    match s.running with
    | some id => c.abort id
    | none => c

/-! ## Events -/

/-- What a factory call came to. -/
inductive Built where
  | resource (r : Resource)
  | failed (e : BrokerError)
  | panicked
  deriving DecidableEq, Repr

/-- What can happen to a cache. -/
inductive Event where
  /-- A call begins. -/
  | call (op : Operation)
  /-- The service that the call has told to close is closed. -/
  | serviceClosed (id : CallId)
  /-- The factory call of the call has ended. -/
  | built (id : CallId) (b : Built)
  /-- A waiting call looks again. -/
  | wake (id : CallId)
  /-- A call is cancelled. -/
  | abort (id : CallId)
  /-- A sweeper is started in place of the one before. -/
  | spawnSweeper (interval : Nat)
  /-- The sweeper begins a sweep, if one is due. -/
  | tick
  /-- The clock moves on. -/
  | clock (t : Nat)
  /-- A session is cut off. -/
  | sever (session : SessionId)
  /-- Something happens behind a tunnel. -/
  | forward (tunnel : TunnelId) (e : Forwarding.Event)
  /-- Something else happens in the world around the cache: a factory opens or closes what it
  needs, a hop dies. -/
  | world (net : Network)
  /-- The keys are put in another order. -/
  | reorder (rows : List (Fingerprint × SlotId))
  deriving DecidableEq, Repr

/-- What an operation does until it first has to wait. -/
def begin (id : CallId) (c : Cache) : Operation → Activity × Cache
  | .get key => c.round id key maxStaleRounds
  | .touch key => c.touch id key
  | .sweep =>
    let (claimed, c) := c.expire id
    c.releaseClaimed id claimed claimed.length
  | .close key => c.close id key
  | .closeAll => c.closeAll id
  | .shutdown => c.stopSweeper.closeAll id

/-- A call begins, under the next number. -/
def call (c : Cache) (op : Operation) : CallId × Cache :=
  let id := c.calls.length
  let (a, c) := c.begin id op
  (id, { c with calls := c.calls ++ [⟨op, a⟩] })

/-- What a call does once the service that it has told to close is closed. -/
def afterClose (id : CallId) (c : Cache) : Activity → Activity × Cache
  | .getting key left (.clearing e rest) =>
    let c := c.endRelease id e
    match rest with
    | [] => c.take id key left
    | e :: rest => (.getting key left (.clearing e rest), c.beginRelease id e)
  | .getting key left (.discarding e) => (c.endRelease id e).round id key left
  | .getting key left (.evicting e builtHere) =>
    let c := c.endRelease id e
    if builtHere then (.ended (.failed (deadKey key)), c) else c.staleRound id key left
  | .dropping e => (.ended (.flag false), c.endRelease id e)
  | .sweeping e rest total => (c.endRelease id e).releaseClaimed id rest total
  | .closing e => (.ended (.flag true), c.endRelease id e)
  | .draining e rest released => drain id rest (released + 1) (c.endRelease id e)
  | a => (a, c)

/-- The service that a call has told to close is closed. -/
def serviceClosed (c : Cache) (id : CallId) : Cache :=
  match c.activity? id with
  | some a =>
    let (a, c) := afterClose id c a
    c.setActivity id a
  | none => c

/-- The factory call of a call has ended. -/
def built (c : Cache) (id : CallId) (b : Built) : Cache :=
  match c.activity? id with
  | some (.getting key left (.building slot)) =>
    match b with
    | .panicked => (c.passOn slot).setActivity id (.ended .panicked)
    | .failed err =>
      let (a, c) := (c.conclude slot (.failed err)).observe id key slot true left (.failed err)
      c.setActivity id a
    | .resource r =>
      let e := c.entries.length
      let c := { c with entries := c.entries ++ [Entry.fresh key r c.net.now c.ttl] }
      let (a, c) := (c.conclude slot (.ready e)).observe id key slot true left (.ready e)
      c.setActivity id a
  | _ => c

/-- A waiting call looks at its slot again: it goes on with the outcome, or builds if it was given
the right to. -/
def wake (c : Cache) (id : CallId) : Cache :=
  match c.activity? id with
  | some (.getting key left (.waiting slot)) =>
    match c.outcome? slot with
    | some o =>
      let (a, c) := c.observe id key slot false left o
      c.setActivity id a
    | none =>
      if c.builder? slot = some id then
        (c.note id (.build slot)).setActivity id (.getting key left (.building slot))
      else c
  | _ => c

/-- A sweeper is started in place of the one before. One without an interval ends at once. -/
def spawnSweeper (c : Cache) (interval : Nat) : Cache :=
  let c := c.stopSweeper
  if interval = 0 then c
  else { c with sweeper := some ⟨interval, c.net.now + interval, none⟩ }

/-- The sweeper is not in the middle of a sweep. -/
def sweeperIdle (c : Cache) (s : Sweeper) : Bool :=
  match s.running with
  | some id => (c.result? id).isSome
  | none => true

/-- When the sweeper's next sweep is due, unless it is in the middle of one. -/
def tickDue? (c : Cache) : Option Nat :=
  match c.sweeper with
  | some s => if c.sweeperIdle s then some s.nextTick else none
  | none => none

/-- The sweeper begins a sweep, if one is due. A sweep that is late does not delay the ones after
it. -/
def tick (c : Cache) : Cache :=
  match c.sweeper with
  | some s =>
    if c.sweeperIdle s && decide (s.nextTick ≤ c.net.now) then
      let (id, c) := c.call .sweep
      { c with sweeper := some ⟨s.interval, s.nextTick + s.interval, some id⟩ }
    else c
  | none => c

/-- The world around the cache has changed; its clock does not go back. -/
def setWorld (c : Cache) (net : Network) : Cache :=
  { c with net := { net with now := max c.net.now net.now } }

/-- The keys are put in another order: what runs through all of them, runs through them in no
particular order. -/
def reorder (c : Cache) (rows : List (Fingerprint × SlotId)) : Cache :=
  if rows.isPerm c.current then { c with current := rows } else c

/-- One step. -/
def step (c : Cache) : Event → Cache
  | .call op => (c.call op).2
  | .serviceClosed id => c.serviceClosed id
  | .built id b => c.built id b
  | .wake id => c.wake id
  | .abort id => c.abort id
  | .spawnSweeper interval => c.spawnSweeper interval
  | .tick => c.tick
  | .clock t => { c with net := c.net.setClock t }
  | .sever s => { c with net := c.net.sever s }
  | .forward t e =>
    { c with net := { c.net with tunnels := c.net.tunnels.modify t (·.forward e) } }
  | .world net => c.setWorld net
  | .reorder rows => c.reorder rows

/-- The state after some events. -/
def run (c : Cache) (events : List Event) : Cache :=
  events.foldl step c

end Cache

end ConnectionBroker
