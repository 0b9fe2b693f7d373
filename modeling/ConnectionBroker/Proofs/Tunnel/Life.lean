import ConnectionBroker.Proofs.Network.Accounts

/-!
# The life of one tunnel

A `Life` is a tunnel in a world of its own, with any number of starts in progress : each waits for
the connector or for the local port, and between two of its steps anything may happen (`Event`) :
other starts, closes, trouble with the listener, the loss of the session, the end of the tunnel
itself. An event that cannot happen changes nothing, so every list of events is a life.

How far such a life can get is a short list (`Legal`) : of the starts only the first is let in, and
wherever it is overtaken, the session that it brings is closed by whoever is left with it. Every
step keeps to the list (`Legal.move`), and so does every life.
-/

namespace ConnectionBroker

/-- What a start waits for. -/
inductive StartPhase where
  | connecting
  /-- For the local port, with a session in its hands. -/
  | listening (session : SessionId)
  deriving DecidableEq

/-- A tunnel in a world of its own. -/
structure Life where
  target : SshTarget
  net : Network
  /-- The starts in progress. -/
  pending : List StartPhase
  /-- What the starts that ended came to, latest first. -/
  answers : List (Except BrokerError UInt16)
  /-- The owner let the tunnel go. -/
  dropped : Bool

namespace Life

/-- What can happen to a tunnel. -/
inductive Event where
  | start
  /-- The connector answers a start. -/
  | connected (start : Nat) (r : Except BrokerError SessionTraits)
  /-- A start gets its local port, or none. -/
  | listened (start : Nat) (r : Except ListenFailure UInt16)
  | close
  /-- The owner lets the tunnel go; a start in progress keeps it. -/
  | drop
  /-- Somebody asks whether the tunnel is alive. -/
  | check
  /-- Something happens behind the tunnel: accepting fails, perhaps. -/
  | forward (e : Forwarding.Event)
  /-- A session is lost, or fares otherwise. -/
  | session (s : SessionId) (row : Session)
  | clock (t : Nat)

/-- A tunnel that was just made, and nothing else. -/
def born (target : SshTarget) (host : String) (port : UInt16) : Life :=
  ⟨target, (Network.empty.addTunnel (.new target host port)).2, [], [], false⟩

/-- The only tunnel there is. -/
def tunnel? (l : Life) : Option Tunnel :=
  l.net.tunnels[0]?

/-- A start has ended. -/
def finish (l : Life) (i : Nat) (r : Except BrokerError UInt16 × Network) : Life :=
  { l with net := r.2, pending := l.pending.eraseIdx i, answers := r.1 :: l.answers }

/-- A start goes on with a session, or ends without. -/
def proceed (l : Life) (i : Nat) : Except BrokerError SessionId × Network → Life
  | (.ok s, net) => { l with net, pending := l.pending.set i (.listening s) }
  | (.error e, net) => l.finish i (.error e, net)

/-- The connector's answer reaches a start. -/
def connected (l : Life) (i : Nat) : Except BrokerError SessionTraits → Life
  | .ok traits =>
    let (s, net) := l.net.openSession l.target traits
    l.proceed i (net.tunnelConnected 0 (.ok s))
  | .error e => l.proceed i (l.net.tunnelConnected 0 (.error e))

/-- A start begins: it is turned away, or asks the connector. -/
def start (l : Life) : Life :=
  match l.net.beginTunnel 0 with
  | (.ok (), net) =>
    { l with net := net.askSession l.target, pending := l.pending ++ [.connecting] }
  | (.error e, net) => { l with net, answers := .error e :: l.answers }

/-- One step. -/
def step (l : Life) : Event → Life
  | .start => if l.dropped then l else l.start
  | .connected i r =>
    match l.pending[i]? with
    | some .connecting => l.connected i r
    | _ => l
  | .listened i r =>
    match l.pending[i]? with
    | some (.listening s) => l.finish i (l.net.tunnelListening 0 s r)
    | _ => l
  | .close => if l.dropped then l else { l with net := l.net.closeTunnel 0 }
  | .drop => if l.pending = [] then { l with net := l.net.closeTunnel 0, dropped := true } else l
  | .check => if l.dropped then l else { l with net := (l.net.checkTunnel 0).2 }
  | .forward e =>
    { l with net := { l.net with tunnels := l.net.tunnels.modify 0 (·.forward e) } }
  | .session s row => { l with net := { l.net with sessions := l.net.sessions.set s row } }
  | .clock t => { l with net := l.net.setClock t }

/-- The life after some events. -/
def run (l : Life) (events : List Event) : Life :=
  events.foldl step l

/-- The tunnel says that it is alive. -/
def Alive (l : Life) : Prop :=
  (l.net.checkTunnel 0).1 = true

/-- A session says that it is alive. -/
def Answers (l : Life) (s : SessionId) : Prop :=
  (l.net.checkSession s).1 = true

instance (l : Life) : Decidable l.Alive :=
  inferInstanceAs (Decidable (_ = true))

instance (l : Life) (s : SessionId) : Decidable (l.Answers s) :=
  inferInstanceAs (Decidable (_ = true))

/-- How often the connector was asked. -/
def connects (l : Life) : Nat :=
  l.net.log.countP fun row => row.2 matches .connect _

/-- How many starts came to a good end. -/
def successes (l : Life) : Nat :=
  l.answers.countP fun answer => answer matches .ok _

/-- The sessions that were closed, one for each time. -/
def closes (l : Life) : List SessionId :=
  l.net.accounts.closedSessions

/-- What a step comes to. -/
inductive Move (l : Life) : Event → Life → Prop
  | stay {e : Event} : Move l e l
  | start : Move l .start l.start
  | connected {i : Nat} (hp : l.pending[i]? = some .connecting)
      (r : Except BrokerError SessionTraits) : Move l (.connected i r) (l.connected i r)
  | listened {i : Nat} {s : SessionId} (hp : l.pending[i]? = some (.listening s))
      (r : Except ListenFailure UInt16) :
      Move l (.listened i r) (l.finish i (l.net.tunnelListening 0 s r))
  | close (dropped : Bool) : Move l .close { l with net := l.net.closeTunnel 0, dropped }
  | drop (dropped : Bool) : Move l .drop { l with net := l.net.closeTunnel 0, dropped }
  | check : Move l .check { l with net := (l.net.checkTunnel 0).2 }
  | forward (e : Forwarding.Event) : Move l (.forward e)
      { l with net := { l.net with tunnels := l.net.tunnels.modify 0 (·.forward e) } }
  | session (s : SessionId) (row : Session) : Move l (.session s row)
      { l with net := { l.net with sessions := l.net.sessions.set s row } }
  | clock (t : Nat) : Move l (.clock t) { l with net := l.net.setClock t }

theorem step_move (l : Life) (e : Event) : Move l e (l.step e) := by
  cases e <;> simp only [step]
  case start => split <;> constructor
  case connected => split <;> constructor; assumption
  case listened => split <;> constructor; assumption
  case close => split <;> constructor
  case drop => split <;> constructor
  case check => split <;> constructor
  case forward => constructor
  case session => constructor
  case clock => constructor

/-- Of a life, what decides who has to close the session. -/
structure Stage where
  /-- State, session and stop sender of each tunnel. -/
  rows : List (TunnelState × Option SessionId × Bool)
  pending : List StartPhase
  successes : Nat
  connects : Nat
  /-- The number of sessions that the connector gave. -/
  opened : Nat
  closed : List SessionId

/-- How far a life has got. -/
def stage (l : Life) : Stage where
  rows := l.net.tunnels.map fun t => (t.state, t.session, t.stopper)
  pending := l.pending
  successes := l.successes
  connects := l.connects
  opened := l.net.sessions.length
  closed := l.closes

/-- How far a life can get. -/
inductive Legal : Stage → Prop
  | created : Legal ⟨[(.created, none, false)], [], 0, 0, 0, []⟩
  | connecting : Legal ⟨[(.starting, none, false)], [.connecting], 0, 1, 0, []⟩
  | listening : Legal ⟨[(.starting, none, false)], [.listening 0], 0, 1, 1, []⟩
  | started : Legal ⟨[(.started, some 0, true)], [], 1, 1, 1, []⟩
  /-- Closed while the start waits for the connector. -/
  | overtaken : Legal ⟨[(.closed, none, false)], [.connecting], 0, 1, 0, []⟩
  /-- Closed while the start waits for the local port. -/
  | orphaned : Legal ⟨[(.closed, none, false)], [.listening 0], 0, 1, 1, []⟩
  | ended {successes connects opened : Nat} (hs : successes ≤ 1) (hc : connects ≤ 1)
      (ho : opened ≤ 1) :
      Legal ⟨[(.closed, none, false)], [], successes, connects, opened, List.range opened⟩

/-! ## Steps between stages -/

section Steps

variable {l : Life} {state : TunnelState} {session : Option SessionId} {stopper : Bool}

theorem tunnel_of_rows (h : l.stage.rows = [(state, session, stopper)]) :
    ∃ t, l.net.tunnels = [t] ∧ t.state = state ∧ t.session = session ∧ t.stopper = stopper := by
  obtain ⟨t, ht, hrow⟩ := List.map_eq_singleton_iff.1 h
  simp only [Prod.mk.injEq] at hrow
  exact ⟨t, ht, hrow⟩

/-- The first start is let in and asks the connector. -/
theorem stage_start_created (h : l.stage.rows = [(.created, session, stopper)]) :
    l.start.stage = { l.stage with
      rows := [(.starting, session, stopper)]
      pending := l.stage.pending ++ [.connecting]
      connects := l.stage.connects + 1 } := by
  obtain ⟨t, ht, hstate, rfl, rfl⟩ := tunnel_of_rows h
  simp [start, Network.beginTunnel, ht, Tunnel.begin, hstate, stage, Network.setTunnel,
    Network.askSession, Network.record, successes, connects, closes, Network.accounts,
    Happening.closedSession?]

/-- Every other start is turned away. -/
theorem stage_start_begun (h : l.stage.rows = [(state, session, stopper)])
    (hstate : state ≠ .created) : l.start.stage = l.stage := by
  obtain ⟨t, ht, rfl, rfl, rfl⟩ := tunnel_of_rows h
  have hbegin : ∃ e, t.begin = (.error e, t) := by
    unfold Tunnel.begin
    split
    · contradiction
    all_goals exact ⟨_, rfl⟩
  obtain ⟨e, he⟩ := hbegin
  have hself : l.net.setTunnel 0 t = l.net := by
    rw [Network.setTunnel, ht, List.set_cons_zero, ← ht]
  simp [start, Network.beginTunnel, ht, he, hself, stage, successes, connects, closes]

/-- The connector's session goes to the start. -/
theorem stage_connected_ok (h : l.stage.rows = [(state, session, stopper)]) (i : Nat)
    (traits : SessionTraits) :
    (l.connected i (.ok traits)).stage = { l.stage with
      pending := l.stage.pending.set i (.listening l.stage.opened)
      opened := l.stage.opened + 1 } := by
  obtain ⟨t, ht, -, -, -⟩ := tunnel_of_rows h
  simp [connected, Network.openSession, Network.tunnelConnected, ht, Tunnel.connected, proceed,
    Network.setTunnel, stage, successes, connects, closes, Network.accounts]

/-- Without a session the start is over, and the tunnel is closed. -/
theorem stage_connected_error (h : l.stage.rows = [(state, session, stopper)]) (i : Nat)
    (e : BrokerError) :
    (l.connected i (.error e)).stage = { l.stage with
      rows := [(.closed, session, stopper)]
      pending := l.stage.pending.eraseIdx i } := by
  obtain ⟨t, ht, -, rfl, rfl⟩ := tunnel_of_rows h
  simp [connected, Network.tunnelConnected, ht, Tunnel.connected, proceed, finish,
    Network.setTunnel, stage, successes, connects, closes, Network.accounts]

/-- Without a local port the start is over, and tunnel and session are closed. -/
theorem stage_listened_error (h : l.stage.rows = [(state, session, stopper)]) (i : Nat)
    (s : SessionId) (e : ListenFailure) :
    (l.finish i (l.net.tunnelListening 0 s (.error e))).stage = { l.stage with
      rows := [(.closed, session, stopper)]
      pending := l.stage.pending.eraseIdx i
      closed := s :: l.stage.closed } := by
  obtain ⟨t, ht, -, rfl, rfl⟩ := tunnel_of_rows h
  simp [Network.tunnelListening, ht, Tunnel.listening, finish, Network.setTunnel, stage,
    successes, connects, closes, Network.accounts, Network.closeAny,
    Network.closeSession, Network.record, Happening.closedSession?]

/-- With a local port the tunnel is started, unless it is closed. -/
theorem stage_listened_ok (h : l.stage.rows = [(state, session, stopper)])
    (hopen : state ≠ .closed) (i : Nat) (s : SessionId) (port : UInt16) :
    (l.finish i (l.net.tunnelListening 0 s (.ok port))).stage = { l.stage with
      rows := [(.started, some s, true)]
      pending := l.stage.pending.eraseIdx i
      successes := l.stage.successes + 1 } := by
  obtain ⟨t, ht, rfl, rfl, rfl⟩ := tunnel_of_rows h
  simp [Network.tunnelListening, ht, Tunnel.listening, hopen, finish, Network.setTunnel, stage,
    successes, connects, closes, Network.accounts, Network.closeAny]

/-- A start that finds the tunnel closed closes its session. -/
theorem stage_listened_closed (h : l.stage.rows = [(.closed, session, stopper)]) (i : Nat)
    (s : SessionId) (port : UInt16) :
    (l.finish i (l.net.tunnelListening 0 s (.ok port))).stage = { l.stage with
      pending := l.stage.pending.eraseIdx i
      closed := s :: l.stage.closed } := by
  obtain ⟨t, ht, hstate, rfl, rfl⟩ := tunnel_of_rows h
  simp [Network.tunnelListening, ht, Tunnel.listening, hstate, finish, Network.setTunnel, stage,
    successes, connects, closes, Network.accounts, Network.closeAny,
    Network.closeSession, Network.record, Happening.closedSession?]

/-- A tunnel that is closed for the first time gives up its session and its stop sender. -/
theorem stage_close (h : l.stage.rows = [(state, session, stopper)]) (hopen : state ≠ .closed) :
    { l with net := l.net.closeTunnel 0 }.stage = { l.stage with
      rows := [(.closed, none, false)]
      closed := session.toList ++ l.stage.closed } := by
  obtain ⟨t, ht, rfl, rfl, rfl⟩ := tunnel_of_rows h
  cases hs : t.session <;>
    simp [Network.closeTunnel, ht, Tunnel.close, hopen, hs, Network.setTunnel, stage, successes,
      connects, closes, Network.accounts, Network.closeAny, Network.closeSession, Network.record,
      Happening.closedSession?]

/-- Closing a closed tunnel does nothing. -/
theorem stage_close_closed (h : l.stage.rows = [(.closed, session, stopper)]) :
    { l with net := l.net.closeTunnel 0 }.stage = l.stage := by
  obtain ⟨t, ht, hstate, rfl, rfl⟩ := tunnel_of_rows h
  have hrow : l.net.accounts.tunnels[0]? = some (.closed, t.session) := by
    simp [Network.accounts, ht, hstate]
  rw [Network.closeTunnel_of_closed hrow]

theorem stage_check (l : Life) : { l with net := (l.net.checkTunnel 0).2 }.stage = l.stage := by
  simp only [Network.checkTunnel, Network.checkSession]
  split
  · split <;> simp [stage, successes, connects, closes, Network.accounts]
  · rfl

theorem stage_forward (l : Life) (e : Forwarding.Event) :
    { l with net := { l.net with tunnels := l.net.tunnels.modify 0 (·.forward e) } }.stage =
      l.stage := by
  have hrow : ∀ t : Tunnel, ((t.forward e).state, (t.forward e).session, (t.forward e).stopper) =
      (t.state, t.session, t.stopper) := by
    intro t
    unfold Tunnel.forward
    split <;> rfl
  simp only [stage, successes, connects, closes, Network.accounts,
    Network.map_modify_of_eq (fun t : Tunnel => (t.state, t.session, t.stopper)) _ hrow]

theorem stage_session (l : Life) (s : SessionId) (row : Session) :
    { l with net := { l.net with sessions := l.net.sessions.set s row } }.stage = l.stage := by
  simp [stage, successes, connects, closes, Network.accounts]

end Steps

namespace Legal

variable {st : Stage} {l : Life}

theorem pending_length (h : Legal st) : st.pending.length ≤ 1 := by
  cases h <;> simp

/-- Only the start that was let in gets an answer. -/
theorem pending_eq (h : Legal l.stage) {i : Nat} {p : StartPhase} (hp : l.pending[i]? = some p) :
    i = 0 ∧ l.stage.pending = [p] := by
  obtain ⟨hi, rfl⟩ := List.getElem?_eq_some_iff.1 hp
  have hlength : l.pending.length = 1 := by
    have : l.pending.length ≤ 1 := h.pending_length
    omega
  obtain rfl : i = 0 := by omega
  obtain ⟨p, hl⟩ := List.length_eq_one_iff.1 hlength
  simp [stage, hl]

theorem start (h : Legal l.stage) : Legal l.start.stage := by
  generalize hs : l.stage = st at h
  cases h with
  | created =>
    rw [stage_start_created (by rw [hs]), hs]
    exact .connecting
  | _ =>
    rw [stage_start_begun (by rw [hs]) (by decide), hs]
    constructor <;> assumption

theorem connected {i : Nat} (h : Legal l.stage) (hp : l.pending[i]? = some .connecting)
    (r : Except BrokerError SessionTraits) : Legal (l.connected i r).stage := by
  obtain ⟨rfl, hpending⟩ := h.pending_eq hp
  generalize hs : l.stage = st at h hpending
  -- The start is still in its place, or the tunnel was closed meanwhile.
  cases h with
  | connecting =>
    cases r with
    | ok traits =>
      rw [stage_connected_ok (by rw [hs]), hs]
      exact .listening
    | error e =>
      rw [stage_connected_error (by rw [hs]), hs]
      exact .ended (by decide) (by decide) (by decide)
  | overtaken =>
    cases r with
    | ok traits =>
      rw [stage_connected_ok (by rw [hs]), hs]
      exact .orphaned
    | error e =>
      rw [stage_connected_error (by rw [hs]), hs]
      exact .ended (by decide) (by decide) (by decide)
  | _ => simp at hpending

theorem listened {i : Nat} {s : SessionId} (h : Legal l.stage)
    (hp : l.pending[i]? = some (.listening s)) (r : Except ListenFailure UInt16) :
    Legal (l.finish i (l.net.tunnelListening 0 s r)).stage := by
  obtain ⟨rfl, hpending⟩ := h.pending_eq hp
  generalize hs : l.stage = st at h hpending
  cases h with
  | listening =>
    obtain rfl : 0 = s := by simpa using hpending
    cases r with
    | ok port =>
      rw [stage_listened_ok (by rw [hs]) (by decide), hs]
      exact .started
    | error e =>
      rw [stage_listened_error (by rw [hs]), hs]
      exact .ended (by decide) (by decide) (by decide)
  | orphaned =>
    obtain rfl : 0 = s := by simpa using hpending
    cases r with
    | ok port =>
      rw [stage_listened_closed (by rw [hs]), hs]
      exact .ended (by decide) (by decide) (by decide)
    | error e =>
      rw [stage_listened_error (by rw [hs]), hs]
      exact .ended (by decide) (by decide) (by decide)
  | _ => simp at hpending

theorem close (h : Legal l.stage) : Legal { l with net := l.net.closeTunnel 0 }.stage := by
  generalize hs : l.stage = st at h
  cases h with
  | created =>
    rw [stage_close (by rw [hs]) (by decide), hs]
    exact .ended (by decide) (by decide) (by decide)
  | connecting =>
    rw [stage_close (by rw [hs]) (by decide), hs]
    exact .overtaken
  | listening =>
    rw [stage_close (by rw [hs]) (by decide), hs]
    exact .orphaned
  | started =>
    rw [stage_close (by rw [hs]) (by decide), hs]
    exact .ended (by decide) (by decide) (by decide)
  | _ =>
    rw [stage_close_closed (by rw [hs]), hs]
    constructor <;> assumption

theorem move {l' : Life} {e : Event} (h : Legal l.stage) (m : Move l e l') : Legal l'.stage := by
  cases m with
  | stay => exact h
  | start => exact h.start
  | connected hp r => exact h.connected hp r
  | listened hp r => exact h.listened hp r
  | close => exact h.close
  | drop => exact h.close
  | check => exact (stage_check l).symm ▸ h
  | forward e => exact (stage_forward l e).symm ▸ h
  | session s row => exact (stage_session l s row).symm ▸ h
  | clock t => exact h

theorem run (h : Legal l.stage) (events : List Event) : Legal (l.run events).stage := by
  induction events generalizing l with
  | nil => exact h
  | cons e events ih => exact ih (h.move (l.step_move e))

end Legal

theorem legal_born (target : SshTarget) (host : String) (port : UInt16) :
    Legal (born target host port).stage :=
  .created

end Life

end ConnectionBroker
