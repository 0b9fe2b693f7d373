import ConnectionBroker.Simulation.Script

/-!
# The virtual clock

A `State` is a supplied cache that runs on a virtual clock: the calls that were told to go on, in
that order, and the timers that are set. `State.advance` does what is due, one stretch of one call
after the other: a call that was told to go on comes before any timer, a timer before one that is
due later or was set later, and the sweeper's tick after the timers that are due with it. A wait
of no time is no wait.

Nothing of this can be seen by the cache, which is given its events one by one.
-/

namespace ConnectionBroker.Simulation

/-- How services are built in a simulation, and how long that takes. -/
structure Rules (ρ κ α : Type) where
  supplier : Supplier ρ κ α
  /-- How long a build waits for its answer. -/
  delay : κ → Nat
  /-- The answer that a build gets, when its time has come. -/
  answer : κ → Network → α × Network
  /-- The tunnel that a build owns. -/
  tunnel? : κ → Option TunnelId

/-- A call that is to go on at some time. -/
structure Timer where
  due : Nat
  call : CallId
  deriving Repr

/-- A supplied cache on a virtual clock. -/
structure State (ρ κ : Type) where
  supply : Supplied ρ κ
  /-- The timers in the order in which they were set. -/
  timers : List Timer
  /-- The calls that were told to go on. -/
  ready : List CallId
  /-- When each call ended, if it has. -/
  ends : List (Option Nat)
  /-- Entries that are held by name. -/
  held : List (String × EntryId)
  /-- The owner of the cache let go of it. -/
  dropped : Bool

namespace State

variable {ρ κ α : Type}

/-- A cache with nothing in it, at time zero. -/
def new (ttl : Nat) : State ρ κ :=
  ⟨.new ttl, [], [], [], [], false⟩

/-- The cache. -/
def cache (s : State ρ κ) : Cache :=
  s.supply.cache

/-- The world around the cache. -/
def net (s : State ρ κ) : Network :=
  s.supply.cache.net

/-- The virtual time. -/
def now (s : State ρ κ) : Nat :=
  s.net.now

/-- Changes the cache. -/
def setCache (s : State ρ κ) (cache : Cache) : State ρ κ :=
  { s with supply := { s.supply with cache } }

/-- Changes the world around the cache. -/
def setNet (s : State ρ κ) (net : Network) : State ρ κ :=
  s.setCache (s.cache.setWorld net)

/-- Moves the clock on. -/
def setClock (s : State ρ κ) (t : Nat) : State ρ κ :=
  s.setNet (s.net.setClock t)

/-! ## Tunnels that nobody holds -/

/-- The tunnels that somebody holds. -/
def liveTunnels (r : Rules ρ κ α) (s : State ρ κ) : List TunnelId :=
  s.supply.heldTunnels r.tunnel? (s.held.map (·.2))

/-- A tunnel that nobody holds any more closes itself. -/
def closeUnheld (r : Rules ρ κ α) (s : State ρ κ) : State ρ κ :=
  let live := s.liveTunnels r
  s.setNet <| (List.range s.net.tunnels.length).foldl
    (fun n t => if live.contains t then n else n.closeTunnel t) s.net

/-! ## Going on -/

/-- When each of some calls ended, by what was noted before and the time that it is now. -/
def endTimes (now : Nat) : List Call → List (Option Nat) → List (Option Nat)
  | [], _ => []
  | _ :: calls, some t :: noted => some t :: endTimes now calls noted
  | call :: calls, noted =>
    let ended :=
      match call.activity with
      | .ended _ => some now
      | _ => none
    ended :: endTimes now calls noted.tail

/-- Notes the calls that have ended. -/
def noteEnds (s : State ρ κ) : State ρ κ :=
  { s with ends := endTimes s.now s.cache.calls s.ends }

/-- The sweeper is in the middle of a sweep. -/
def sweeping (s : State ρ κ) : Bool :=
  match s.cache.sweeper with
  | some sweeper => !s.cache.sweeperIdle sweeper
  | none => false

/-- A cache without an owner is gone, unless the sweeper is in the middle of a sweep. -/
def vanish (s : State ρ κ) : State ρ κ :=
  if s.dropped && !s.sweeping then s.setCache { s.cache with current := [], sweeper := none }
  else s

/-- What happens by itself after each stretch of a call. -/
def tidy (r : Rules ρ κ α) (s : State ρ κ) : State ρ κ :=
  s.vanish.noteEnds.closeUnheld r

/-- How long a call waits now, if it waits for time to pass. -/
def waitOf? (r : Rules ρ κ α) (s : State ρ κ) (id : CallId) : Option Nat :=
  match s.cache.activity? id with
  | some a =>
    match a.releasing? with
    | some e => (s.cache.entries[e]?).map fun entry => s.net.closeDelay entry.resource.service
    | none => (s.supply.build? id).map r.delay
  | none => none

/-- The calls at a slot that a step told to go on. -/
def woken (before after : Cache) (slot : SlotId) : List CallId :=
  match before.slots[slot]?, after.slots[slot]? with
  | some b, some a =>
    if a.outcome.isSome then b.waiting
    else if a.builder = b.builder then [] else a.builder.toList
  | _, _ => []

/-- Tells the calls at a slot to go on. -/
def wakeAt (before : Cache) (slot : Option SlotId) (s : State ρ κ) : State ρ κ :=
  match slot with
  | some slot => { s with ready := s.ready ++ woken before s.cache slot }
  | none => s

/-- A call has waited long enough. -/
def resume (r : Rules ρ κ α) (s : State ρ κ) (id : CallId) : State ρ κ :=
  let before := s.cache
  match s.supply.build? id with
  | some build =>
    let (a, net) := r.answer build s.net
    let s := s.setNet net
    wakeAt before ((before.activity? id).bind Activity.slot?)
      { s with supply := s.supply.answer r.supplier id a }
  | none => { s with supply := s.supply.apply r.supplier id (.serviceClosed id) }

/-- Lets a call run until it has to wait. -/
def settle (r : Rules ρ κ α) : Nat → State ρ κ → CallId → State ρ κ
  | 0, s, _ => s
  | fuel + 1, s, id =>
    match s.waitOf? r id with
    | some 0 => settle r fuel ((s.resume r id).tidy r) id
    | some delay => { s with timers := s.timers ++ [⟨s.now + delay, id⟩] }
    | none => s

/-- Stretches that one call may have without time passing. -/
def patience : Nat := 100000

/-- Lets a call run until it has to wait. -/
def proceed (r : Rules ρ κ α) (s : State ρ κ) (id : CallId) : State ρ κ :=
  settle r patience (s.tidy r) id

/-! ## What is due -/

/-- What comes next. -/
inductive Next where
  | ready (call : CallId) (rest : List CallId)
  | timer (t : Timer)
  | tick (due : Nat)

/-- The timer that goes off first. -/
def firstTimer? (timers : List Timer) : Option Timer :=
  timers.foldl
    (fun best t =>
      match best with
      | none => some t
      | some b => if t.due < b.due then some t else some b)
    none

/-- Takes out a timer that went off. -/
def dropTimer (t : Timer) : List Timer → List Timer
  | [] => []
  | u :: rest => if u.due = t.due ∧ u.call = t.call then rest else u :: dropTimer t rest

/-- What comes next, if it is due by the given time. -/
def next? (s : State ρ κ) (limit : Option Nat) : Option Next :=
  let inTime (due : Nat) : Bool :=
    match limit with
    | some t => decide (due ≤ t)
    | none => true
  match s.ready with
  | id :: rest => some (.ready id rest)
  | [] =>
    match firstTimer? s.timers, s.cache.tickDue? with
    | some t, some tick =>
      if t.due ≤ tick then (if inTime t.due then some (.timer t) else none)
      else if inTime tick then some (.tick tick) else none
    | some t, none => if inTime t.due then some (.timer t) else none
    | none, some tick => if inTime tick then some (.tick tick) else none
    | none, none => none

/-- Does what comes next. -/
def perform (r : Rules ρ κ α) (s : State ρ κ) : Next → State ρ κ
  | .ready id rest =>
    let s := { s with ready := rest }
    proceed r { s with supply := s.supply.apply r.supplier id (.wake id) } id
  | .timer t =>
    let s := { s.setClock t.due with timers := dropTimer t s.timers }
    proceed r (s.resume r t.call) t.call
  | .tick due =>
    let s := s.setClock due
    let id := s.cache.calls.length
    proceed r (s.setCache s.cache.tick) id

/-- Does what is due, until something is done or the time is up. -/
def advance (r : Rules ρ κ α) (done : State ρ κ → Bool) (limit : Option Nat) :
    Nat → State ρ κ → State ρ κ
  | 0, s => s
  | fuel + 1, s =>
    if done s then s
    else
      match s.next? limit with
      | some n => advance r done limit fuel (s.perform r n)
      | none => s

/-- Stretches that one simulation may have. -/
def endurance : Nat := 100000000

/-! ## From outside -/

/-- Lets some time pass, with everything that is due in it. -/
def wait (r : Rules ρ κ α) (s : State ρ κ) (ms : Nat) : State ρ κ :=
  let t := s.now + ms
  (advance r (fun _ => false) (some t) endurance s).setClock t

/-- The calls have ended. -/
def haveEnded (ids : List CallId) (s : State ρ κ) : Bool :=
  ids.all fun id => (s.cache.result? id).isSome

/-- Waits until some calls have ended. -/
def join (r : Rules ρ κ α) (s : State ρ κ) (ids : List CallId) : State ρ κ :=
  advance r (haveEnded ids) none endurance s

/-- Waits until nothing happens any more. Without a sweeper that time comes. -/
def exhaust (r : Rules ρ κ α) (s : State ρ κ) : State ρ κ :=
  advance r (fun _ => false) none endurance s

/-- Begins to get a key's service. -/
def get (r : Rules ρ κ α) (s : State ρ κ) (key : Fingerprint) (wanted : ρ) :
    CallId × State ρ κ :=
  let (id, supply) := s.supply.get r.supplier key wanted
  (id, proceed r { s with supply } id)

/-- Begins another operation. -/
def call (r : Rules ρ κ α) (s : State ρ κ) (op : Operation) : CallId × State ρ κ :=
  let (id, cache) := s.cache.call op
  (id, proceed r (s.setCache cache) id)

/-- Cancels a call. -/
def abort (r : Rules ρ κ α) (s : State ρ κ) (id : CallId) : State ρ κ :=
  let before := s.cache
  let slot := (before.activity? id).bind Activity.slot?
  (wakeAt before slot { s with supply := s.supply.abort id }).tidy r

/-- Does an operation and waits for its result. -/
def complete (r : Rules ρ κ α) (s : State ρ κ) (op : Operation) : Option Result × State ρ κ :=
  let (id, s) := s.call r op
  let s := s.join r [id]
  (s.cache.result? id, s)

end State

end ConnectionBroker.Simulation
