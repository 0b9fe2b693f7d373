import ConnectionBroker.Config.Connection

/-!
# Forwarded connections

What runs behind a started tunnel: a loop that accepts local connections until it is told to stop
or until accepting fails, and one pair for each accepted connection. A pair dials the tunnel's
fixed remote endpoint once and then relays until one side ends. `Forwarding.active` counts the
pairs that relay.

What the listener has for the loop waits until the loop takes its turn. The loop looks at the stop
signal first, so nothing that still waits then is accepted, and an accept error that waits then
does not make the tunnel dead. Pairs go on regardless.
-/

namespace ConnectionBroker

/-- How far the pair of one accepted connection has come. -/
inductive PairPhase where
  /-- Accepted; the remote endpoint is not dialled yet. -/
  | accepted
  | dialling
  | relaying
  | ended
  deriving DecidableEq, Repr

/-- What a listener has for the loop that accepts. -/
inductive Arrival where
  | connection
  /-- Accepting fails. -/
  | failure
  deriving DecidableEq, Repr

/-- A dial of the remote endpoint, and the pair that it is for. -/
structure PairDial where
  pair : Nat
  host : String
  port : UInt16
  deriving DecidableEq, Repr

/-- The accept loop of a tunnel and the pairs that it started. -/
structure Forwarding where
  /-- The remote endpoint of every pair. -/
  host : String
  port : UInt16
  /-- The loop was told to stop. -/
  stopped : Bool
  /-- The loop runs no more. -/
  ended : Bool
  /-- Accepting failed, so the loop ended on its own. -/
  dead : Bool
  /-- What the loop has not taken yet, in the order in which it came. -/
  arrivals : List Arrival
  /-- The pairs in the order in which they were accepted. -/
  pairs : List PairPhase
  /-- The dials, latest first. -/
  dials : List PairDial
  /-- The pairs that relay. -/
  active : Nat
  deriving DecidableEq, Repr

namespace Forwarding

/-- What can happen behind a tunnel. -/
inductive Event where
  /-- A client connects to the local port. -/
  | connection
  /-- The listener has an error for the loop. -/
  | acceptError
  /-- The loop takes its turn. -/
  | turn
  /-- The pair runs for the first time. -/
  | dial (pair : Nat)
  | dialled (pair : Nat)
  | dialFailed (pair : Nat)
  /-- One of the pair's sides ended. -/
  | relayEnded (pair : Nat)
  deriving DecidableEq, Repr

/-- A loop that has just begun to accept. -/
def start (host : String) (port : UInt16) : Forwarding :=
  ⟨host, port, false, false, false, [], [], [], 0⟩

/-- Tells the loop to stop. -/
def stop (f : Forwarding) : Forwarding :=
  { f with stopped := true }

/-- Something comes to the listener, which is gone once the loop has ended. -/
def arrive (f : Forwarding) (a : Arrival) : Forwarding :=
  if f.ended then f else { f with arrivals := f.arrivals ++ [a] }

/-- The loop takes its turn: it ends if it was told to, and else takes what came first. -/
def turn (f : Forwarding) : Forwarding :=
  if f.ended then f
  else if f.stopped then { f with ended := true, arrivals := [] }
  else
    match f.arrivals with
    | [] => f
    | .connection :: rest => { f with arrivals := rest, pairs := f.pairs ++ [.accepted] }
    | .failure :: _ => { f with ended := true, dead := true, arrivals := [] }

/-- The pair is in this phase. -/
def inPhase (f : Forwarding) (pair : Nat) (phase : PairPhase) : Bool :=
  f.pairs[pair]? == some phase

/-- Moves a pair to another phase. -/
def move (f : Forwarding) (pair : Nat) (phase : PairPhase) : Forwarding :=
  { f with pairs := f.pairs.set pair phase }

/-- One step. An event that cannot happen now changes nothing. -/
def step (f : Forwarding) : Event → Forwarding
  | .connection => f.arrive .connection
  | .acceptError => f.arrive .failure
  | .turn => f.turn
  | .dial pair =>
    if f.inPhase pair .accepted then
      { f.move pair .dialling with dials := ⟨pair, f.host, f.port⟩ :: f.dials }
    else f
  | .dialled pair =>
    if f.inPhase pair .dialling then { f.move pair .relaying with active := f.active + 1 } else f
  | .dialFailed pair => if f.inPhase pair .dialling then f.move pair .ended else f
  | .relayEnded pair =>
    if f.inPhase pair .relaying then { f.move pair .ended with active := f.active - 1 } else f

end Forwarding

end ConnectionBroker
