import ConnectionBroker.Simulation.Reply

/-!
# Scenarios for the cache

A cache whose services are built as scripts say, used by one caller step by step
(`CacheScenario.run`) or by several callers at once (`CacheScenario.race`).
-/

namespace ConnectionBroker.Simulation.CacheScenario

/-- A cache with scripted builds. -/
abbrev Scene := State (List BuildScript) ScriptedBuild

/-- How long the builds take and what comes of them. -/
def rules : Rules (List BuildScript) ScriptedBuild Cache.Built where
  supplier := ScriptedBuild.supplier
  delay := fun build => build.script.delay
  answer := ScriptedBuild.outcome
  tunnel? := fun _ => none

/-- What the caller of a cache can do in one step. -/
inductive Step where
  | get (key : Fingerprint) (builds : List BuildScript)
  | operate (op : Operation)
  | size
  | contains (key : Fingerprint)
  | ttl
  | entry (key : Fingerprint)
  /-- Keeps an entry under a name. -/
  | hold (key : Fingerprint) (name : String)
  | held (name : String)
  | unhold (name : String)
  /-- Releases the resource of a held entry without a claim. -/
  | releaseHeld (name : String)
  | heldService (name : String)
  | sever (session : SessionId)
  | wait (ms : Nat)
  | sweeper (interval : Nat)
  | drop

/-- The step needs the cache itself. -/
def Step.needsCache : Step → Bool
  | held _ | unhold _ | releaseHeld _ | heldService _ | sever _ | wait _ => false
  | _ => true

/-- The entry that is held under a name. -/
def heldUnder? (s : Scene) (name : String) : Option EntryId :=
  s.held.lookup name

/-- Keeps an entry under a name, in place of the one before. -/
def hold (s : Scene) (name : String) (e : EntryId) : Scene :=
  { s with held := (name, e) :: s.held.filter (·.1 != name) }

/-- Looks at a held entry. -/
def showHeld (s : Scene) (name : String) : Reply × Scene :=
  match heldUnder? s name with
  | some e => s.showEntry e
  | none => (.nothing, s)

/-- Releases the resource of an entry: the service is closed, and its hop after that. -/
def release (s : Scene) (e : EntryId) : Scene :=
  match s.cache.entries[e]? with
  | some entry =>
    let delay := s.net.closeDelay entry.resource.service
    let s := s.setCache (s.cache.tellService e)
    let s := if delay = 0 then s else s.wait rules delay
    s.setCache (s.cache.closeHop e)
  | none => s

/-- One step while the cache is there, or one that does not need it. -/
def act (s : Scene) : Step → Reply × Scene
  | .get key builds =>
    let (id, s) := s.get rules key builds
    s.await rules id
  | .operate op => s.showOperation rules op
  | .size => (.size s.cache.size, s)
  | .contains key => (.flag (s.cache.contains key), s)
  | .ttl => (.count s.cache.ttl, s)
  | .entry key => s.showKey key
  | .hold key name =>
    match s.cache.find? key with
    | some e => ((hold s name e).tidy rules).showEntry e
    | none => (.nothing, s)
  | .held name => showHeld s name
  | .unhold name =>
    (.flag (heldUnder? s name).isSome,
      { s with held := s.held.filter (·.1 != name) }.tidy rules)
  | .releaseHeld name =>
    match heldUnder? s name with
    | some e => (release s e).showEntry e
    | none => (.nothing, s)
  | .heldService name =>
    match (heldUnder? s name).bind (s.cache.entries[·]?) with
    | some entry => (s.showService entry.resource.service, s)
    | none => (.nothing, s)
  | .sever session => s.sever session
  | .wait ms => s.showWait rules ms
  | .sweeper interval => (.flag true, (s.setCache (s.cache.spawnSweeper interval)).tidy rules)
  | .drop => (.flag true, { s with dropped := true }.tidy rules)

/-- One step. -/
def step (s : Scene) (x : Step) : Reply × Scene :=
  if s.dropped && x.needsCache then (.dropped, s) else act s x

/-- What the steps show, on a cache with this time to live. -/
def run (ttl : Nat) (steps : List Step) : List (Shown Reply) :=
  runSteps (fun s => s.net.log) step (State.new ttl) steps

/-! ## Several callers at once -/

/-- What one of several callers does. -/
inductive Action where
  | get (key : Fingerprint) (builds : List BuildScript)
  | operate (op : Operation)
  | size
  | contains (key : Fingerprint)
  | ttl
  /-- Cancels what the caller of that number does. -/
  | abort (caller : Nat)

/-- What a caller has come to: an answer at once, or a call. -/
inductive Turn where
  | answered (at' : Nat) (reply : Reply)
  | calling (id : CallId)
  /-- Only another caller was cancelled. -/
  | silent

/-- A caller begins. -/
def beginAction (s : Scene) (turns : List Turn) : Action → Turn × Scene
  | .get key builds =>
    let (id, s) := s.get rules key builds
    (.calling id, s)
  | .operate op =>
    let (id, s) := s.call rules op
    (.calling id, s)
  | .size => (.answered s.now (.size s.cache.size), s)
  | .contains key => (.answered s.now (.flag (s.cache.contains key)), s)
  | .ttl => (.answered s.now (.count s.cache.ttl), s)
  | .abort caller =>
    match turns[caller]? with
    | some (.calling id) => (.silent, s.abort rules id)
    | _ => (.silent, s)

/-- Callers begin at their times; everything due before that is done first. -/
def beginAll : Scene → List Turn → List (Nat × Action) → List Turn × Scene
  | s, turns, [] => (turns, s)
  | s, turns, (t, action) :: rest =>
    let s := if s.now < t then (s.wait rules (t - s.now - 1)).setClock t else s
    let (turn, s) := beginAction s turns action
    beginAll s (turns ++ [turn]) rest

/-- How a caller ended. -/
inductive Ending where
  | ended (at' : Nat) (reply : Reply)
  | aborted
  | panicked
  | silent

/-- How a caller ended. -/
def ending (s : Scene) : Turn → Ending
  | .answered t reply => .ended t reply
  | .silent => .silent
  | .calling id =>
    match s.cache.result? id with
    | some .aborted => .aborted
    | some .panicked => .panicked
    | result => .ended ((s.ends[id]?.join).getD s.now) (s.showResult result)

/-- What several callers at once come to. -/
structure Race where
  endings : List Ending
  events : List String
  size : Nat

/-- What callers that begin at the given times come to, on a cache with this time to live. -/
def race (ttl : Nat) (calls : List (Nat × Action)) : Race :=
  let (turns, s) := beginAll (.new ttl) [] calls
  let s := s.exhaust rules
  ⟨turns.map (ending s), Transcript.timedLines s.net.log.reverse, s.cache.size⟩

end ConnectionBroker.Simulation.CacheScenario
