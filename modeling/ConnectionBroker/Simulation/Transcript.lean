import ConnectionBroker.Network.Happening

/-!
# Transcripts

The log of a simulation as lines. Several entries that are released one after the other are
released in no particular order, so a transcript brings them into one: within each run of closes,
a service with the session closed directly after it is a group, and the groups are put in the
order of their numbers.
-/

namespace ConnectionBroker.Simulation

/-- Something that happened at some time. -/
abbrev Timed := Nat × Happening

namespace Transcript

/-- The happening is a close. -/
def isClose (e : Timed) : Bool :=
  e.2.closes?.isSome

/-- The happening closes a session. -/
def isSessionClose (e : Timed) : Bool :=
  match e.2 with
  | .closeSession _ => true
  | _ => false

/-- The happening closes a service. -/
def isServiceClose (e : Timed) : Bool :=
  match e.2 with
  | .closeService _ => true
  | _ => false

/-- Puts a happening in front of the groups of a run of closes. -/
def addToGroups (e : Timed) : List (List Timed) → List (List Timed)
  | (f :: group) :: rest =>
    if isServiceClose e && isSessionClose f && group.isEmpty then [e, f] :: rest
    else [e] :: (f :: group) :: rest
  | groups => [e] :: groups

/-- The groups of a run of closes. -/
def groups (run : List Timed) : List (List Timed) :=
  run.foldr addToGroups []

/-- The number by which a group is put in order. -/
def groupNumber (group : List Timed) : Nat :=
  match group with
  | e :: _ => e.2.closes?.getD 0
  | [] => 0

/-- A run of closes, its groups in order. -/
def arrange (run : List Timed) : List Timed :=
  ((groups run).mergeSort fun a b => groupNumber a ≤ groupNumber b).flatten

/-- Two happenings belong to one run of closes. -/
def sameRun (splitByTime : Bool) (a b : Timed) : Bool :=
  isClose a && isClose b && (!splitByTime || a.1 == b.1)

/-- Splits the happenings into runs. -/
def runs (splitByTime : Bool) (log : List Timed) : List (List Timed) :=
  log.splitBy (sameRun splitByTime)

/-- The happenings, oldest first, with every run of closes in order. -/
def ordered (splitByTime : Bool) (log : List Timed) : List Timed :=
  (runs splitByTime log).flatMap arrange

/-- The lines of what happened, oldest first. -/
def lines (log : List Timed) : List String :=
  (ordered false log).map fun e => e.2.render

/-- The lines of what happened, oldest first, each with its time. -/
def timedLines (log : List Timed) : List String :=
  (ordered true log).map fun e => toString e.1 ++ " " ++ e.2.render

end Transcript

end ConnectionBroker.Simulation
