import ConnectionBroker.Cache.Entry

/-!
# The state of the cache

A `Cache` keeps at most one live service for each key. A key's place in `Cache.current` is a
`Slot`, made by the first call that misses the key. One of the slot's callers has the right to
build (`Slot.builder`), the others wait in the order in which they came, and the outcome of the
build is the outcome of all of them.

Slots, entries and calls are never forgotten here: they stay in their tables under the number that
they got when they were made, so that what a call still holds after the cache let go of it has a
name. A `Call` is one use of the cache in progress; its `Activity` says what it is waiting for, and
with that everything it will do next. The `journal` says which call did what: it is the account
that the guarantees of the cache are about.
-/

namespace ConnectionBroker

/-- The number of a slot. -/
abbrev SlotId := Nat

/-- The number of an entry, in the order in which they were built. -/
abbrev EntryId := Nat

/-- The number of a call. -/
abbrev CallId := Nat

/-- What a build came to. -/
inductive Outcome where
  | ready (entry : EntryId)
  | failed (e : BrokerError)
  deriving DecidableEq, Repr

/-- The guard of one key's construction. -/
structure Slot where
  key : Fingerprint
  /-- The call with the right to build. -/
  builder : Option CallId
  /-- The calls that wait for the outcome or for the right to build, first come first. -/
  waiting : List CallId
  outcome : Option Outcome
  deriving DecidableEq, Repr

/-- What a caller can ask of the cache. -/
inductive Operation where
  /-- The service of a key, built if there is none. -/
  | get (key : Fingerprint)
  /-- Resets the idle time of a key's entry. -/
  | touch (key : Fingerprint)
  /-- Releases every stale entry. -/
  | sweep
  /-- Releases a key's entry. -/
  | close (key : Fingerprint)
  /-- Releases every entry. -/
  | closeAll
  /-- Stops the sweeper and releases every entry. -/
  | shutdown
  deriving DecidableEq, Repr

/-- What a call comes to. -/
inductive Result where
  | service (service : ServiceId)
  | failed (e : BrokerError)
  | flag (b : Bool)
  | count (n : Nat)
  /-- Building the service panicked in this call. -/
  | panicked
  /-- The call was cancelled. -/
  | aborted
  deriving DecidableEq, Repr

/-- What a `get` is waiting for: in all but `waiting` and `building`, until the service of the
entry named first is closed. -/
inductive Phase where
  /-- It releases what its own sweep claimed. -/
  | clearing (entry : EntryId) (rest : List EntryId)
  /-- It waits for the outcome of a slot or for the right to build there. -/
  | waiting (slot : SlotId)
  /-- It builds. -/
  | building (slot : SlotId)
  /-- It releases what was built in its slot, because the key was closed meanwhile. -/
  | discarding (entry : EntryId)
  /-- It releases an entry that it found stale. -/
  | evicting (entry : EntryId) (builtHere : Bool)
  deriving DecidableEq, Repr

/-- What a call is waiting for: in all but `getting` and `ended`, until the service of the entry
named first is closed. -/
inductive Activity where
  /-- A `get`, with so many stale rounds left to it. -/
  | getting (key : Fingerprint) (left : Nat) (phase : Phase)
  /-- A `touch` releases an entry that it found stale. -/
  | dropping (entry : EntryId)
  /-- A `sweep` releases what it claimed, this many in all. -/
  | sweeping (entry : EntryId) (rest : List EntryId) (total : Nat)
  /-- A `close` releases its entry. -/
  | closing (entry : EntryId)
  /-- A `closeAll` releases an entry, with slots still to look at and so many entries released. -/
  | draining (entry : EntryId) (rest : List SlotId) (released : Nat)
  | ended (result : Result)
  deriving DecidableEq, Repr

/-- The entry that a call is releasing: the one whose service it has told to close. -/
def Activity.releasing? : Activity → Option EntryId
  | .getting _ _ (.clearing e _) => some e
  | .getting _ _ (.discarding e) => some e
  | .getting _ _ (.evicting e _) => some e
  | .dropping e => some e
  | .sweeping e _ _ => some e
  | .closing e => some e
  | .draining e _ _ => some e
  | _ => none

/-- The entries that a call has claimed and is to release after the one it is releasing. -/
def Activity.claimed : Activity → List EntryId
  | .getting _ _ (.clearing _ rest) => rest
  | .sweeping _ rest _ => rest
  | _ => []

/-- The slots that a call took out of the cache and has yet to look at. -/
def Activity.drained : Activity → List SlotId
  | .draining _ rest _ => rest
  | _ => []

/-- The slot that a call builds in or waits at. -/
def Activity.slot? : Activity → Option SlotId
  | .getting _ _ (.building slot) => some slot
  | .getting _ _ (.waiting slot) => some slot
  | _ => none

/-- One use of the cache. -/
structure Call where
  operation : Operation
  activity : Activity
  deriving DecidableEq, Repr

/-- The background task that sweeps at a fixed interval. -/
structure Sweeper where
  interval : Nat
  /-- When the next sweep is due. -/
  nextTick : Nat
  /-- The sweep started last. -/
  running : Option CallId
  deriving DecidableEq, Repr

/-- What a call does to the cache and to what is in it. -/
inductive Deed where
  /-- A round of a `get` begins. -/
  | round (key : Fingerprint)
  /-- The factory is called for a slot. -/
  | build (slot : SlotId)
  /-- A slot is taken out of the cache because what it holds is of no use any more. -/
  | forget (slot : SlotId)
  /-- The slot of a key is taken out of the cache on request, whatever it holds. -/
  | withdraw (key : Fingerprint) (slot : SlotId)
  /-- The teardown of an entry is claimed. -/
  | claim (entry : EntryId)
  /-- The release of an entry begins: its service is told to close. -/
  | tellService (entry : EntryId)
  /-- The service of an entry is closed. -/
  | serviceClosed (entry : EntryId)
  /-- The release of an entry ends: its hop is closed. -/
  | closeHop (entry : EntryId)
  /-- A call is cancelled that had claimed an entry and not ended its release. -/
  | abandon (entry : EntryId)
  deriving DecidableEq, Repr

/-- The entry that a deed is about. -/
def Deed.about : Deed → Option EntryId
  | .claim e => some e
  | .tellService e => some e
  | .serviceClosed e => some e
  | .closeHop e => some e
  | .abandon e => some e
  | _ => none

/-- A cache with everything that was ever in it, and the world around it. -/
structure Cache where
  net : Network
  ttl : Nat
  /-- The slot of each key. -/
  current : List (Fingerprint × SlotId)
  slots : List Slot
  entries : List Entry
  calls : List Call
  sweeper : Option Sweeper
  /-- Which call did what, in order. -/
  journal : List (CallId × Deed)
  deriving Repr

namespace Cache

/-- A cache with nothing in it. -/
def new (ttl : Nat) : Cache :=
  ⟨.empty, ttl, [], [], [], [], none, []⟩

/-- How many stale or closed entries one `get` puts up with. -/
def maxStaleRounds : Nat := 3

/-- Enters what a call does in the journal. -/
def note (c : Cache) (id : CallId) (d : Deed) : Cache :=
  { c with journal := c.journal ++ [(id, d)] }

/-- What was done to an entry, in order, and by which calls. -/
def deedsOf (c : Cache) (e : EntryId) : List (CallId × Deed) :=
  c.journal.filter fun d => d.2.about == some e

/-! ## Slots -/

/-- The slot is the one that its key has now. -/
def isCurrent (c : Cache) (key : Fingerprint) (slot : SlotId) : Bool :=
  c.current.lookup key == some slot

/-- Takes a key out of the cache. -/
def remove (c : Cache) (key : Fingerprint) : Cache :=
  { c with current := c.current.eraseP fun row => row.1 == key }

/-- Takes a slot that is of no use out of the cache unless it was replaced. -/
def forget (c : Cache) (id : CallId) (key : Fingerprint) (slot : SlotId) : Cache :=
  if c.isCurrent key slot then (c.remove key).note id (.forget slot) else c

/-- Takes the slot of a key out of the cache on request, if there is one. -/
def withdraw (c : Cache) (id : CallId) (key : Fingerprint) : Cache :=
  match c.current.lookup key with
  | some slot => (c.remove key).note id (.withdraw key slot)
  | none => c

/-- Takes every slot out of the cache on request. -/
def withdrawAll (c : Cache) (id : CallId) : Cache :=
  { c with
    current := []
    journal := c.journal ++ c.current.map fun row => (id, .withdraw row.1 row.2) }

/-- The slot of a key, made if there is none. -/
def slotFor (c : Cache) (key : Fingerprint) : SlotId × Cache :=
  match c.current.lookup key with
  | some slot => (slot, c)
  | none =>
    (c.slots.length,
      { c with
        current := c.current ++ [(key, c.slots.length)]
        slots := c.slots ++ [⟨key, none, [], none⟩] })

/-- What the build of a slot came to. -/
def outcome? (c : Cache) (slot : SlotId) : Option Outcome :=
  c.slots[slot]?.bind (·.outcome)

/-- The entry that a slot holds. -/
def ready? (c : Cache) (slot : SlotId) : Option EntryId :=
  match c.outcome? slot with
  | some (.ready e) => some e
  | _ => none

/-- The call with the right to build in a slot. -/
def builder? (c : Cache) (slot : SlotId) : Option CallId :=
  c.slots[slot]?.bind (·.builder)

/-- Changes one slot. -/
def updateSlot (c : Cache) (slot : SlotId) (f : Slot → Slot) : Cache :=
  { c with slots := c.slots.modify slot f }

/-- Gives a call the right to build. -/
def setBuilder (c : Cache) (slot : SlotId) (id : CallId) : Cache :=
  c.updateSlot slot fun s => { s with builder := some id }

/-- Puts a call at the end of a slot's queue. -/
def enqueue (c : Cache) (slot : SlotId) (id : CallId) : Cache :=
  c.updateSlot slot fun s => { s with waiting := s.waiting ++ [id] }

/-- Gives the right to build to the call that has waited longest, if there is one. -/
def passOn (c : Cache) (slot : SlotId) : Cache :=
  c.updateSlot slot fun s => { s with builder := s.waiting.head?, waiting := s.waiting.tail }

/-- Stores the outcome of a build, for everyone who waits for it. -/
def conclude (c : Cache) (slot : SlotId) (o : Outcome) : Cache :=
  c.updateSlot slot fun s => { s with builder := none, waiting := [], outcome := some o }

/-! ## Entries -/

/-- Puts an entry in its place. -/
def setEntry (c : Cache) (i : EntryId) (e : Entry) : Cache :=
  { c with entries := c.entries.set i e }

/-- Asks the hop of an entry whether it is alive, if that matters. -/
def checkEntry (c : Cache) (e : Entry) : Bool × Cache :=
  if e.asks c.net.now then
    let (alive, net) := c.net.checkHop e.resource.hop
    (alive, { c with net })
  else (true, c)

/-- Uses an entry, or claims its teardown if it is stale. -/
def access (c : Cache) (id : CallId) (i : EntryId) : Access × Cache :=
  match c.entries[i]? with
  | some e =>
    let (alive, c) := c.checkEntry e
    match e.access c.net.now alive with
    | (.expired, e) => (.expired, (c.setEntry i e).note id (.claim i))
    | (result, e) => (result, c.setEntry i e)
  | none => (.closed, c)

/-- Claims the teardown of an entry if it is stale. -/
def tryExpire (c : Cache) (id : CallId) (i : EntryId) : Bool × Cache :=
  match c.entries[i]? with
  | some e =>
    let (alive, c) := c.checkEntry e
    match e.tryExpire c.net.now alive with
    | (true, e) => (true, (c.setEntry i e).note id (.claim i))
    | (false, e) => (false, c.setEntry i e)
  | none => (false, c)

/-- Claims the teardown of an entry. -/
def markClosed (c : Cache) (id : CallId) (i : EntryId) : Bool × Cache :=
  match c.entries[i]? with
  | some e =>
    match e.markClosed with
    | (true, e) => (true, (c.setEntry i e).note id (.claim i))
    | (false, e) => (false, c.setEntry i e)
  | none => (false, c)

/-- The entry is there and its teardown is not claimed. -/
def isOpen (c : Cache) (i : EntryId) : Bool :=
  match c.entries[i]? with
  | some e => !e.closed
  | none => false

/-- Tells the service of an entry to close. -/
def tellService (c : Cache) (i : EntryId) : Cache :=
  match c.entries[i]? with
  | some e => { c with net := c.net.closeService e.resource.service }
  | none => c

/-- Closes the hop of an entry. -/
def closeHop (c : Cache) (i : EntryId) : Cache :=
  match c.entries[i]? with
  | some e => { c with net := c.net.closeHop e.resource.hop }
  | none => c

/-- Begins to release an entry: its service is told to close. -/
def beginRelease (c : Cache) (id : CallId) (i : EntryId) : Cache :=
  (c.tellService i).note id (.tellService i)

/-- Ends the release of an entry, once its service is closed: its hop is closed. -/
def endRelease (c : Cache) (id : CallId) (i : EntryId) : Cache :=
  ((c.note id (.serviceClosed i)).closeHop i).note id (.closeHop i)

/-! ## What can be asked at any moment -/

/-- The open entry of a key. -/
def find? (c : Cache) (key : Fingerprint) : Option EntryId :=
  match c.current.lookup key with
  | some slot => (c.ready? slot).filter c.isOpen
  | none => none

/-- A key has an open entry. -/
def contains (c : Cache) (key : Fingerprint) : Bool :=
  (c.find? key).isSome

/-- The open entries. -/
def openEntries (c : Cache) : List EntryId :=
  (c.current.filterMap fun row => c.ready? row.2).filter c.isOpen

/-- The number of open entries. -/
def size (c : Cache) : Nat :=
  c.openEntries.length

/-- There is no open entry. -/
def isEmpty (c : Cache) : Bool :=
  c.size == 0

/-! ## Calls -/

/-- What a call is waiting for. -/
def activity? (c : Cache) (id : CallId) : Option Activity :=
  c.calls[id]?.map (·.activity)

/-- Sets what a call is waiting for. -/
def setActivity (c : Cache) (id : CallId) (a : Activity) : Cache :=
  { c with calls := c.calls.modify id fun call => { call with activity := a } }

/-- What an ended call came to. -/
def result? (c : Cache) (id : CallId) : Option Result :=
  match c.activity? id with
  | some (.ended r) => some r
  | _ => none

end Cache

end ConnectionBroker
