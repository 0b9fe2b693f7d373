import ConnectionBroker.Simulation.Clockwork
import ConnectionBroker.Simulation.Transcript

/-!
# Replies

What a caller sees in a simulation: the results of operations, and entries as they look from
outside.
-/

namespace ConnectionBroker.Simulation

/-- An entry as it looks from outside. -/
structure EntryView where
  key : Fingerprint
  createdAt : Nat
  lastUse : Nat
  ttl : Nat
  closed : Bool
  alive : Bool
  hop : Hop
  deriving DecidableEq, Repr

/-- What a step of a simulation shows. -/
inductive Reply where
  | nothing
  | service (service : ServiceId) (address : String)
  | failed (e : BrokerError)
  | flag (b : Bool)
  | count (n : Nat)
  | panicked
  | aborted
  | size (n : Nat)
  | entry (view : EntryView)
  | selection (s : Selection)
  | settings (s : BrokerSettings)
  | cached (n : Nat)
  | text (s : String)
  | list (items : List Reply)
  /-- The cache is gone. -/
  | dropped
  deriving Repr

namespace State

variable {ρ κ α : Type}

/-- A service as its caller sees it. -/
def showService (s : State ρ κ) (service : ServiceId) : Reply :=
  match s.net.services[service]? with
  | some row => .service service row.address
  | none => .nothing

/-- A result as the caller sees it. -/
def showResult (s : State ρ κ) : Option Result → Reply
  | some (.service service) => s.showService service
  | some (.failed e) => .failed e
  | some (.flag b) => .flag b
  | some (.count n) => .count n
  | some .panicked => .panicked
  | some .aborted => .aborted
  | none => .nothing

/-- Looks at an entry, which asks its hop whether it is alive. -/
def showEntry (s : State ρ κ) (e : EntryId) : Reply × State ρ κ :=
  match s.cache.entries[e]? with
  | some entry =>
    let (alive, net) := s.net.checkHop entry.resource.hop
    (.entry ⟨entry.key, entry.createdAt, entry.lastUse, entry.ttl, entry.closed, alive,
        entry.resource.hop⟩,
      s.setNet net)
  | none => (.nothing, s)

/-- Looks at the open entry of a key. -/
def showKey (s : State ρ κ) (key : Fingerprint) : Reply × State ρ κ :=
  match s.cache.find? key with
  | some e => s.showEntry e
  | none => (.nothing, s)

/-- Cuts a session off, if there is one of that number. -/
def sever (s : State ρ κ) (session : SessionId) : Reply × State ρ κ :=
  (.flag (decide (session < s.net.sessions.length)), s.setCache (s.cache.step (.sever session)))

/-- Lets time pass; shows the time. -/
def showWait (r : Rules ρ κ α) (s : State ρ κ) (ms : Nat) : Reply × State ρ κ :=
  let s := s.wait r ms
  (.count s.now, s)

/-- Does an operation and shows its result. -/
def showOperation (r : Rules ρ κ α) (s : State ρ κ) (op : Operation) : Reply × State ρ κ :=
  let (result, s) := s.complete r op
  (s.showResult result, s)

/-- Waits for a call and shows its result. -/
def await (r : Rules ρ κ α) (s : State ρ κ) (id : CallId) : Reply × State ρ κ :=
  let s := s.join r [id]
  (s.showResult (s.cache.result? id), s)

end State

/-- A step with what it showed and what happened during it. -/
structure Shown (ρ : Type) where
  reply : ρ
  events : List String

/-- Runs some steps one after the other, in a scene with a log, latest first. -/
def runSteps {σ τ ρ : Type} (log : τ → List Timed) (step : τ → σ → ρ × τ) :
    τ → List σ → List (Shown ρ)
  | _, [] => []
  | s, x :: rest =>
    let (reply, after) := step s x
    let new := (log after).take ((log after).length - (log s).length)
    ⟨reply, Transcript.lines new.reverse⟩ :: runSteps log step after rest

end ConnectionBroker.Simulation
