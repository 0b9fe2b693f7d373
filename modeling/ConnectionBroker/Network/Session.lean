import ConnectionBroker.Config.SshTarget

/-!
# SSH sessions

A `Session` is one open connection to an SSH host. It is alive until it is closed or severed, or
until its time is up; `Session.check` is the question whether it still is. A session with a
budget of checks answers yes only so many times, as one does whose death shows in the middle of
somebody's work.
-/

namespace ConnectionBroker

/-- The number of a session, in the order in which sessions were opened. -/
abbrev SessionId := Nat

/-- What a session does with the streams that are dialled through it. -/
inductive DialMode where
  /-- Bytes come back as they were sent. -/
  | echo
  /-- Nobody can be reached. -/
  | fail
  /-- A text is sent and the stream closed. -/
  | greet (text : String)
  /-- So many bytes come back at once and the stream is closed. -/
  | limit (bytes : Nat)
  deriving DecidableEq, Repr

/-- How a session behaves once it is open. -/
structure SessionTraits where
  /-- Severed from the start. -/
  dead : Bool
  /-- The time from which it is dead. -/
  diesAt : Option Nat
  /-- How often it answers that it is alive. -/
  checks : Option Nat
  dial : DialMode
  deriving DecidableEq, Repr

namespace SessionTraits

/-- Alive for ever, and echoing. -/
def lasting : SessionTraits :=
  ⟨false, none, none, .echo⟩

instance : Inhabited SessionTraits := ⟨lasting⟩

end SessionTraits

/-- One open connection to an SSH host. -/
structure Session where
  target : SshTarget
  closed : Bool
  severed : Bool
  diesAt : Option Nat
  /-- How often it will still answer that it is alive, if there is a limit. -/
  checksLeft : Option Nat
  dial : DialMode
  deriving DecidableEq, Repr

namespace Session

/-- A session just opened. -/
def fresh (target : SshTarget) (traits : SessionTraits) : Session :=
  ⟨target, false, traits.dead, traits.diesAt, traits.checks, traits.dial⟩

/-- Neither closed nor severed. -/
def intact (s : Session) : Bool :=
  !s.closed && !s.severed

/-- Its time is not up. -/
def inTime (s : Session) (now : Nat) : Bool :=
  match s.diesAt with
  | some t => decide (now < t)
  | none => true

/-- Whether the session is alive. The budget of checks is only drawn on if nothing else says that
it is not. -/
def check (s : Session) (now : Nat) : Bool × Session :=
  if s.intact && s.inTime now then
    match s.checksLeft with
    | none => (true, s)
    | some 0 => (false, s)
    | some (n + 1) => (true, { s with checksLeft := some n })
  else (false, s)

/-- The session closed by its owner. -/
def close (s : Session) : Session :=
  { s with closed := true }

/-- The session cut off by the other side. -/
def sever (s : Session) : Session :=
  { s with severed := true }

end Session

end ConnectionBroker
