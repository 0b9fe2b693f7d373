import ConnectionBroker.Broker.Construction

/-!
# The accounts of the network

Of all that a network knows, little matters for who has to close what : how many sessions were
opened, how far each tunnel is and which session it has, and what was closed (`Accounts`). Every
operation on the network is a small one on its accounts, or leaves them as they are.
-/

namespace ConnectionBroker

/-- The session that is closed, if the happening closes one. -/
def Happening.closedSession? : Happening → Option SessionId
  | .closeSession s => some s
  | _ => none

/-- The service that is told to close, if the happening tells one. -/
def Happening.closedService? : Happening → Option ServiceId
  | .closeService s => some s
  | _ => none

/-- How far a tunnel is, and the session that it has. -/
abbrev TunnelPhase := TunnelState × Option SessionId

/-- What was opened, and what was closed of it. -/
structure Accounts where
  /-- The number of sessions that were opened. -/
  sessions : Nat
  /-- The number of services that were asked for. -/
  services : Nat
  tunnels : List TunnelPhase
  /-- The sessions that were closed, one for each time. -/
  closedSessions : List SessionId
  /-- The services that were told to close, one for each time. -/
  closedServices : List ServiceId

namespace Network

variable {n : Network} {t : TunnelId} {s : SessionId}

/-- The accounts of a network. -/
def accounts (n : Network) : Accounts where
  sessions := n.sessions.length
  services := n.services.length
  tunnels := n.tunnels.map fun t => (t.state, t.session)
  closedSessions := n.log.filterMap fun row => row.2.closedSession?
  closedServices := n.log.filterMap fun row => row.2.closedService?

/-! ## What leaves the accounts alone -/

theorem accounts_setClock (n : Network) (t : Nat) : (n.setClock t).accounts = n.accounts :=
  rfl

theorem accounts_sever (n : Network) (s : SessionId) : (n.sever s).accounts = n.accounts := by
  simp [accounts, sever]

theorem accounts_askSession (n : Network) (target : SshTarget) :
    (n.askSession target).accounts = n.accounts :=
  rfl

theorem accounts_checkSession (n : Network) (s : SessionId) :
    (n.checkSession s).2.accounts = n.accounts := by
  unfold checkSession
  split <;> simp [accounts]

theorem accounts_checkHop (n : Network) (hop : Hop) :
    (n.checkHop hop).2.accounts = n.accounts := by
  cases hop with
  | direct => rfl
  | channel s => exact accounts_checkSession n s
  | tunnel t =>
    simp only [checkHop, checkTunnel]
    split
    · exact accounts_checkSession n _
    · rfl

theorem map_modify_of_eq {α β : Type} (g : α → β) (f : α → α) (h : ∀ a, g (f a) = g a)
    (rows : List α) (i : Nat) : (rows.modify i f).map g = rows.map g := by
  refine List.ext_getElem? fun j => ?_
  rw [List.getElem?_map, List.getElem?_modify, List.getElem?_map]
  cases rows[j]? <;> split <;> simp [h]

/-- What happens behind a tunnel changes neither its state nor its session. -/
theorem accounts_forward (n : Network) (t : TunnelId) (e : Forwarding.Event) :
    ({ n with tunnels := n.tunnels.modify t (·.forward e) } : Network).accounts = n.accounts := by
  have hphase : ∀ tunnel : Tunnel,
      ((tunnel.forward e).state, (tunnel.forward e).session) = (tunnel.state, tunnel.session) := by
    intro tunnel
    unfold Tunnel.forward
    split <;> rfl
  simp only [accounts, map_modify_of_eq (fun t : Tunnel => (t.state, t.session)) _ hphase]

/-! ## Opening and closing -/

theorem accounts_openSession (n : Network) (target : SshTarget) (traits : SessionTraits) :
    (n.openSession target traits).2.accounts =
      { n.accounts with sessions := n.accounts.sessions + 1 } := by
  simp [accounts, openSession]

theorem accounts_closeSession (n : Network) (s : SessionId) :
    (n.closeSession s).accounts =
      { n.accounts with closedSessions := s :: n.accounts.closedSessions } := by
  simp [accounts, closeSession, record, Happening.closedSession?, Happening.closedService?]

theorem accounts_askService (n : Network) (e : Endpoint) :
    (n.askService e).2.accounts = { n.accounts with services := n.accounts.services + 1 } := by
  simp [accounts, askService, addService, record, Happening.closedSession?,
    Happening.closedService?]

theorem accounts_closeService (n : Network) (s : ServiceId) :
    (n.closeService s).accounts =
      { n.accounts with closedServices := s :: n.accounts.closedServices } := by
  simp [accounts, closeService, record, Happening.closedSession?, Happening.closedService?]

theorem accounts_setTunnel (n : Network) (i : TunnelId) (t : Tunnel) :
    (n.setTunnel i t).accounts =
      { n.accounts with tunnels := n.accounts.tunnels.set i (t.state, t.session) } := by
  simp [accounts, setTunnel, List.map_set]

theorem getElem?_tunnels_accounts {phase : TunnelPhase} :
    n.accounts.tunnels[t]? = some phase ↔
      ∃ tunnel, n.tunnels[t]? = some tunnel ∧ (tunnel.state, tunnel.session) = phase := by
  simp [accounts]

/-- A tunnel that is just made and started at once. -/
theorem accounts_start (n : Network) (target : SshTarget) (host : String) (port : UInt16) :
    ((n.addTunnel (.new target host port)).2.beginTunnel n.tunnels.length).2.accounts =
      { n.accounts with tunnels := n.accounts.tunnels ++ [(.starting, none)] } := by
  have hadd : (n.addTunnel (.new target host port)).2.accounts.tunnels =
      n.accounts.tunnels ++ [(.created, none)] := by simp [accounts, addTunnel, Tunnel.new]
  have hlength : n.accounts.tunnels.length = n.tunnels.length := by simp [accounts]
  have hbegin : (n.addTunnel (.new target host port)).2.beginTunnel n.tunnels.length =
      (.ok (), (n.addTunnel (.new target host port)).2.setTunnel n.tunnels.length
        { Tunnel.new target host port with state := .starting }) := by
    simp [addTunnel, beginTunnel, Tunnel.begin, Tunnel.new]
  rw [hbegin, accounts_setTunnel, hadd, ← hlength, List.set_append_right _ _ (Nat.le_refl _),
    Nat.sub_self]
  rfl

/-- A tunnel whose start gets a session goes on with it. -/
theorem tunnelConnected_ok {phase : TunnelPhase} (h : n.accounts.tunnels[t]? = some phase)
    (s : SessionId) : n.tunnelConnected t (.ok s) = (.ok s, n) := by
  obtain ⟨tunnel, ht, -⟩ := getElem?_tunnels_accounts.1 h
  have hself : n.setTunnel t tunnel = n := by
    obtain ⟨hlt, rfl⟩ := List.getElem?_eq_some_iff.1 ht
    simp [setTunnel]
  simp [tunnelConnected, ht, Tunnel.connected, hself]

/-- A tunnel whose start gets no session is closed. -/
theorem tunnelConnected_error {phase : TunnelPhase} (h : n.accounts.tunnels[t]? = some phase)
    (e : BrokerError) : ∃ n',
      n.tunnelConnected t (.error e) = (.error (Tunnel.connectError e), n') ∧
        n'.accounts =
          { n.accounts with tunnels := n.accounts.tunnels.set t (.closed, phase.2) } := by
  obtain ⟨tunnel, ht, rfl⟩ := getElem?_tunnels_accounts.1 h
  refine ⟨n.setTunnel t { tunnel with state := .closed }, ?_, accounts_setTunnel ..⟩
  simp [tunnelConnected, ht, Tunnel.connected]

/-- A tunnel with a local port is started, with the session of its start. -/
theorem tunnelListening_ok {phase : TunnelPhase} (h : n.accounts.tunnels[t]? = some phase)
    (hopen : phase.1 ≠ .closed) (s : SessionId) (port : UInt16) :
    ∃ n', n.tunnelListening t s (.ok port) = (.ok port, n') ∧
      n'.accounts = { n.accounts with tunnels := n.accounts.tunnels.set t (.started, some s) } := by
  obtain ⟨tunnel, ht, rfl⟩ := getElem?_tunnels_accounts.1 h
  refine ⟨n.setTunnel t { tunnel with
    state := .started, localPort := some port, session := some s, stopper := true }, ?_,
    accounts_setTunnel ..⟩
  simp [tunnelListening, ht, Tunnel.listening, hopen, closeAny]

/-- A tunnel without a local port is closed, and so is the session of its start. -/
theorem tunnelListening_error {phase : TunnelPhase} (h : n.accounts.tunnels[t]? = some phase)
    (s : SessionId) (e : ListenFailure) :
    ∃ answer n', n.tunnelListening t s (.error e) = (.error answer, n') ∧
      n'.accounts = { n.accounts with
        tunnels := n.accounts.tunnels.set t (.closed, phase.2)
        closedSessions := s :: n.accounts.closedSessions } := by
  obtain ⟨tunnel, ht, rfl⟩ := getElem?_tunnels_accounts.1 h
  refine ⟨.tunnelStartFailed e.message,
    (n.setTunnel t { tunnel with state := .closed }).closeSession s, ?_, ?_⟩
  · simp [tunnelListening, ht, Tunnel.listening, closeAny]
  · rw [accounts_closeSession, accounts_setTunnel]

/-- A tunnel that is closed for the first time gives its session up. -/
theorem accounts_closeTunnel {phase : TunnelPhase} (h : n.accounts.tunnels[t]? = some phase)
    (hopen : phase.1 ≠ .closed) : (n.closeTunnel t).accounts = { n.accounts with
      tunnels := n.accounts.tunnels.set t (.closed, none)
      closedSessions := phase.2.toList ++ n.accounts.closedSessions } := by
  obtain ⟨tunnel, ht, rfl⟩ := getElem?_tunnels_accounts.1 h
  simp only [closeTunnel, ht, Tunnel.close, if_neg hopen]
  cases hs : tunnel.session with
  | none => rw [closeAny, accounts_setTunnel]; rfl
  | some s => rw [closeAny, accounts_closeSession, accounts_setTunnel]; rfl

/-- Closing a tunnel that is closed changes nothing. -/
theorem closeTunnel_of_closed {session : Option SessionId}
    (h : n.accounts.tunnels[t]? = some (.closed, session)) : n.closeTunnel t = n := by
  obtain ⟨tunnel, ht, hphase⟩ := getElem?_tunnels_accounts.1 h
  obtain ⟨hlt, rfl⟩ := List.getElem?_eq_some_iff.1 ht
  simp [closeTunnel, Tunnel.close, (Prod.mk.inj hphase).1, setTunnel, closeAny, hlt]

/-- Closing a tunnel that is not there changes nothing. -/
theorem closeTunnel_of_none (h : n.accounts.tunnels[t]? = none) : n.closeTunnel t = n := by
  have ht : n.tunnels[t]? = none := by simpa [accounts] using h
  simp [closeTunnel, ht]

/-- Closing a tunnel opens no session and has nothing to do with services. -/
theorem closeTunnel_accounts (n : Network) (t : TunnelId) : ∃ tunnels closed,
    (n.closeTunnel t).accounts =
      ⟨n.accounts.sessions, n.accounts.services, tunnels, closed, n.accounts.closedServices⟩ := by
  cases h : n.accounts.tunnels[t]? with
  | none =>
    rw [closeTunnel_of_none h]
    exact ⟨_, _, rfl⟩
  | some phase =>
    by_cases hclosed : phase.1 = .closed
    · rw [closeTunnel_of_closed (h.trans (by rw [← hclosed]))]
      exact ⟨_, _, rfl⟩
    · exact ⟨_, _, accounts_closeTunnel h hclosed⟩

/-- Closing a hop opens no session and has nothing to do with services. -/
theorem closeHop_accounts (n : Network) (hop : Hop) : ∃ tunnels closed,
    (n.closeHop hop).accounts =
      ⟨n.accounts.sessions, n.accounts.services, tunnels, closed, n.accounts.closedServices⟩ := by
  cases hop with
  | direct => exact ⟨_, _, rfl⟩
  | channel s => exact ⟨_, _, n.accounts_closeSession s⟩
  | tunnel t => exact n.closeTunnel_accounts t

end Network

end ConnectionBroker
