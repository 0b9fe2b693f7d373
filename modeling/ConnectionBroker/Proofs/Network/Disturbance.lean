import ConnectionBroker.Proofs.Network.Steady
import ConnectionBroker.Proofs.Tunnel.Behind
import ConnectionBroker.Proofs.Broker.Leaks

/-!
# Disturbances

While a build waits, others use the network : a `Disturbance` is one thing that they do. Somebody
who has a tunnel and some sessions to himself finds them as he left them after any disturbance that
is about none of them (`Network.leaves_apply`). His sessions were not closed, and his tunnel is in
the same state, with the same session and the same port, whatever went through it meanwhile
(`Network.Leaves`).
-/

namespace ConnectionBroker

/-- The tunnel without what goes on behind it. -/
def Tunnel.quiet (t : Tunnel) : Tunnel :=
  { t with forwarding := .start t.forwarding.host t.forwarding.port }

/-- What goes on behind a tunnel leads where it always led. -/
theorem Forwarding.endpoint_step (f : Forwarding) (e : Event) :
    (f.step e).host = f.host ∧ (f.step e).port = f.port :=
  (f.step_move e).endpoint

@[simp] theorem Tunnel.quiet_forward (t : Tunnel) (e : Forwarding.Event) :
    (t.forward e).quiet = t.quiet := by
  unfold forward
  split
  · simp [quiet, t.forwarding.endpoint_step e]
  · rfl

/-- The session that a start leaves to be closed is its own. -/
theorem Tunnel.eq_of_orphan {t : Tunnel} {s s' : SessionId} {r : Except ListenFailure UInt16}
    (h : (t.listening s r).orphan = some s') : s = s' := by
  cases r with
  | error e => exact Option.some.inj h
  | ok port =>
    by_cases hclosed : t.state = .closed
    · rw [listening, if_pos hclosed] at h
      exact Option.some.inj h
    · rw [listening, if_neg hclosed] at h
      cases h

/-- One thing that others do to the network. -/
inductive Disturbance where
  | clock (t : Nat)
  | openSession (target : SshTarget) (traits : SessionTraits)
  | closeSession (s : SessionId)
  | sever (s : SessionId)
  | checkSession (s : SessionId)
  | addTunnel (tunnel : Tunnel)
  | beginTunnel (t : TunnelId)
  | tunnelConnected (t : TunnelId) (r : Except BrokerError SessionId)
  | tunnelListening (t : TunnelId) (s : SessionId) (r : Except ListenFailure UInt16)
  | closeTunnel (t : TunnelId)
  | forward (t : TunnelId) (e : Forwarding.Event)
  | askSession (target : SshTarget)
  | askBuild (key : String)
  | askService (e : Endpoint)
  | setCloseDelay (s : ServiceId) (delay : Nat)
  | closeService (s : ServiceId)

namespace Disturbance

/-- The network after the disturbance. -/
def apply (n : Network) : Disturbance → Network
  | clock t => n.setClock t
  | openSession target traits => (n.openSession target traits).2
  | closeSession s => n.closeSession s
  | sever s => n.sever s
  | checkSession s => (n.checkSession s).2
  | addTunnel tunnel => (n.addTunnel tunnel).2
  | beginTunnel t => (n.beginTunnel t).2
  | tunnelConnected t r => (n.tunnelConnected t r).2
  | tunnelListening t s r => (n.tunnelListening t s r).2
  | closeTunnel t => n.closeTunnel t
  | forward t e => { n with tunnels := n.tunnels.modify t (·.forward e) }
  | askSession target => n.askSession target
  | askBuild key => (n.askBuild key).2
  | askService e => (n.askService e).2
  | setCloseDelay s delay => n.setCloseDelay s delay
  | closeService s => n.closeService s

/-- The tunnel that is started or closed. -/
def tunnel? : Disturbance → Option TunnelId
  | beginTunnel t => some t
  | tunnelConnected t _ => some t
  | tunnelListening t _ _ => some t
  | closeTunnel t => some t
  | _ => none

/-- The session that is closed, or could be. -/
def session? (n : Network) : Disturbance → Option SessionId
  | closeSession s => some s
  | tunnelListening _ s _ => some s
  | closeTunnel t => n.tunnels[t]?.bind (·.session)
  | _ => none

/-- The disturbance is about neither the tunnel nor the sessions, and it closes no session that was
never opened. -/
def spares (tunnel : Option TunnelId) (sessions : List SessionId) (n : Network)
    (d : Disturbance) : Bool :=
  (d.tunnel?.all fun t => tunnel != some t) &&
    (d.session? n).all fun s => !sessions.contains s && decide (s < n.sessions.length)

end Disturbance

namespace Network

variable {n n' n'' : Network} {tunnel : Option TunnelId} {sessions : List SessionId}

/-- The later network has the tunnel and the sessions as they were left. -/
structure Leaves (tunnel : Option TunnelId) (sessions : List SessionId) (n n' : Network) :
    Prop where
  opened : n.sessions.length ≤ n'.sessions.length
  /-- Neither these sessions were closed nor any that is still to come. -/
  closes : ∀ s, s ∈ sessions ∨ n'.sessions.length ≤ s → n'.sessionCloses s = n.sessionCloses s
  tunnel : ∀ t, tunnel = some t →
    n'.tunnels[t]?.map Tunnel.quiet = n.tunnels[t]?.map Tunnel.quiet

namespace Leaves

theorem refl (tunnel : Option TunnelId) (sessions : List SessionId) (n : Network) :
    n.Leaves tunnel sessions n :=
  ⟨Nat.le_refl _, fun _ _ => rfl, fun _ _ => rfl⟩

theorem trans (h : n.Leaves tunnel sessions n') (h' : n'.Leaves tunnel sessions n'') :
    n.Leaves tunnel sessions n'' :=
  ⟨h.opened.trans h'.opened,
    fun s hs => (h'.closes s hs).trans (h.closes s (hs.imp_right h'.opened.trans)),
    fun t ht => (h'.tunnel t ht).trans (h.tunnel t ht)⟩

/-- Fewer things are left as they were, too. -/
theorem forget (h : n.Leaves tunnel sessions n') : n.Leaves none sessions n' :=
  ⟨h.opened, h.closes, nofun⟩

/-- What has to do with neither the tunnels nor the log. -/
theorem of_frame (hopened : n.sessions.length ≤ n'.sessions.length) (hlog : n'.log = n.log)
    (htunnels : n'.tunnels = n.tunnels) : n.Leaves tunnel sessions n' :=
  ⟨hopened, fun s _ => by rw [sessionCloses, hlog, sessionCloses], fun t _ => by rw [htunnels]⟩

end Leaves

theorem sessionCloses_record (n : Network) (h : Happening) (s : SessionId) :
    (n.record h).sessionCloses s = n.sessionCloses s + if h = .closeSession s then 1 else 0 := by
  simp [sessionCloses, record, List.countP_cons]

/-- A happening that is no close of a session. -/
theorem leaves_record (n : Network) (h : Happening) (hh : h.closedSession? = none) :
    n.Leaves tunnel sessions (n.record h) := by
  refine ⟨Nat.le_refl _, fun s _ => ?_, fun _ _ => rfl⟩
  have hne : h ≠ .closeSession s := by
    rintro rfl
    cases hh
  rw [sessionCloses_record, if_neg hne, Nat.add_zero]

theorem leaves_askService (n : Network) (e : Endpoint) :
    n.Leaves tunnel sessions (n.askService e).2 := by
  refine .trans ?_ (leaves_record (n.addService e.stableAddress).2 _ rfl)
  exact .of_frame (Nat.le_refl _) rfl rfl

theorem sessionCloses_closeSession (n : Network) (s s' : SessionId) :
    (n.closeSession s).sessionCloses s' = n.sessionCloses s' + if s = s' then 1 else 0 := by
  have h := n.sessionCloses_record (.closeSession s) s'
  simp only [Happening.closeSession.injEq] at h
  exact h

/-- The close of a session of somebody else. -/
theorem leaves_closeSession {s : SessionId} (hs : s ∉ sessions) (hlt : s < n.sessions.length) :
    n.Leaves tunnel sessions (n.closeSession s) := by
  have hlength : (n.closeSession s).sessions.length = n.sessions.length := by
    simp [closeSession]
  refine ⟨hlength.ge, fun s' hs' => ?_, fun _ _ => rfl⟩
  have hne : s ≠ s' := by
    rintro rfl
    rcases hs' with hmem | hle
    · exact hs hmem
    · exact absurd (hlength ▸ hle) (Nat.not_le.2 hlt)
  rw [sessionCloses_closeSession, if_neg hne, Nat.add_zero]

theorem leaves_closeAny {s : Option SessionId}
    (hs : ∀ s', s = some s' → s' ∉ sessions ∧ s' < n.sessions.length) :
    n.Leaves tunnel sessions (n.closeAny s) := by
  cases s with
  | none => exact .refl ..
  | some s => exact leaves_closeSession (hs s rfl).1 (hs s rfl).2

/-- A change to the tunnel of somebody else. -/
theorem leaves_setTunnel {t : TunnelId} (ht : tunnel ≠ some t) (row : Tunnel) :
    n.Leaves tunnel sessions (n.setTunnel t row) := by
  refine ⟨Nat.le_refl _, fun _ _ => rfl, fun t' ht' => ?_⟩
  have hne : t ≠ t' := by
    rintro rfl
    exact ht ht'
  rw [setTunnel, List.getElem?_set_ne hne]

/-- What is somebody's own is left as it was by all that is not about it. -/
theorem leaves_apply {d : Disturbance} (hd : d.spares tunnel sessions n = true)
    (held : ∀ t, tunnel = some t → t < n.tunnels.length) :
    n.Leaves tunnel sessions (d.apply n) := by
  obtain ⟨htunnel, hsession⟩ := Bool.and_eq_true_iff.1 hd
  replace htunnel : ∀ t, d.tunnel? = some t → tunnel ≠ some t := fun t ht => by
    simpa [ht] using htunnel
  replace hsession : ∀ s, d.session? n = some s → s ∉ sessions ∧ s < n.sessions.length :=
    fun s hs => by simpa [hs] using hsession
  cases d with
  | clock t => exact .of_frame (Nat.le_refl _) rfl rfl
  | openSession target traits => exact .of_frame (by simp [Disturbance.apply, openSession]) rfl rfl
  | closeSession s => exact leaves_closeSession (hsession s rfl).1 (hsession s rfl).2
  | sever s => exact .of_frame (by simp [Disturbance.apply, sever]) rfl rfl
  | checkSession s =>
    refine .of_frame ?_ ?_ ?_ <;> simp only [Disturbance.apply, checkSession] <;> split <;> simp
  | addTunnel row =>
    refine ⟨Nat.le_refl _, fun _ _ => rfl, fun t ht => ?_⟩
    rw [Disturbance.apply, addTunnel, List.getElem?_append_left (held t ht)]
  | beginTunnel t =>
    simp only [Disturbance.apply, beginTunnel]
    split
    · exact leaves_setTunnel (htunnel t rfl) _
    · exact .refl ..
  | tunnelConnected t r =>
    simp only [Disturbance.apply, tunnelConnected]
    split
    · exact leaves_setTunnel (htunnel t rfl) _
    · exact .refl ..
  | tunnelListening t s r =>
    simp only [Disturbance.apply, tunnelListening]
    split
    · rename_i row hrow
      refine (leaves_setTunnel (htunnel t rfl) _).trans (leaves_closeAny fun s' hs' => ?_)
      obtain rfl := Tunnel.eq_of_orphan hs'
      exact hsession s rfl
    · exact .refl ..
  | closeTunnel t =>
    cases hrow : n.tunnels[t]? with
    | none => simpa [Disturbance.apply, closeTunnel, hrow] using Leaves.refl tunnel sessions n
    | some row =>
      rw [Disturbance.apply, closeTunnel_of_row hrow]
      refine (leaves_setTunnel (htunnel t rfl) _).trans (leaves_closeAny fun s hs => ?_)
      exact hsession s (sessionOf?_of_close hrow hs)
  | forward t e =>
    refine ⟨Nat.le_refl _, fun _ _ => rfl, fun t' _ => ?_⟩
    rw [Disturbance.apply, List.getElem?_modify]
    cases n.tunnels[t']? <;> split <;> simp
  | askSession target => exact leaves_record n _ rfl
  | askBuild key =>
    refine .trans ?_ (leaves_record (n.addService key).2 _ rfl)
    exact .of_frame (Nat.le_refl _) rfl rfl
  | askService e => exact leaves_askService n e
  | setCloseDelay s delay => exact .of_frame (Nat.le_refl _) rfl rfl
  | closeService s => exact leaves_record n _ rfl

/-! ## What is one's own -/

/-- A tunnel that is closed cannot be closed again. -/
theorem closeTunnel_closeTunnel (n : Network) (t : TunnelId) :
    (n.closeTunnel t).closeTunnel t = n.closeTunnel t := by
  cases hphase : n.accounts.tunnels[t]? with
  | none => rw [closeTunnel_of_none hphase, closeTunnel_of_none hphase]
  | some phase =>
    by_cases hclosed : phase.1 = .closed
    · have hsame : n.closeTunnel t = n := closeTunnel_of_closed (hphase.trans (by rw [← hclosed]))
      rw [hsame, hsame]
    · have hclose : (n.closeTunnel t).accounts.tunnels[t]? = some (.closed, none) := by
        obtain ⟨hlt, -⟩ := List.getElem?_eq_some_iff.1 hphase
        rw [accounts_closeTunnel hphase hclosed, List.getElem?_set_self hlt]
      exact closeTunnel_of_closed hclose

/-- A tunnel whose start has closed it is not closed by its end. -/
theorem closeTunnel_setTunnel {t : TunnelId} {row : Tunnel}
    (ht : t < n.tunnels.length) (hclosed : row.state = .closed) (s : Option SessionId) :
    ((n.setTunnel t row).closeAny s).closeTunnel t = (n.setTunnel t row).closeAny s := by
  refine closeTunnel_of_closed (getElem?_tunnels_accounts.2 ⟨row, ?_, Prod.ext hclosed rfl⟩)
  have htunnels : ((n.setTunnel t row).closeAny s).tunnels = n.tunnels.set t row := by
    cases s <;> rfl
  rw [htunnels, List.getElem?_set_self ht]

/-- A session that is just opened is nobody else's. -/
theorem leaves_openSession (h : n.Leaves none [] n') (target : SshTarget)
    (traits : SessionTraits) :
    n.Leaves none [n'.sessions.length] (n'.openSession target traits).2 := by
  have hlength : (n'.openSession target traits).2.sessions.length = n'.sessions.length + 1 := by
    simp [openSession]
  refine ⟨h.opened.trans (by omega), fun s hs => ?_, fun _ ht => by cases ht⟩
  refine h.closes s (.inr ?_)
  rcases hs with hs | hs
  · exact (List.mem_singleton.1 hs).ge
  · omega

theorem tunnelConnected_of_row {t : TunnelId} {row : Tunnel}
    (ht : n.tunnels[t]? = some row) (r : Except BrokerError SessionId) :
    n.tunnelConnected t r = ((row.connected r).1, n.setTunnel t (row.connected r).2) := by
  simp [tunnelConnected, ht]

theorem tunnelListening_of_row {t : TunnelId} {row : Tunnel}
    (ht : n.tunnels[t]? = some row) (s : SessionId) (r : Except ListenFailure UInt16) :
    n.tunnelListening t s r = ((row.listening s r).answer,
      (n.setTunnel t (row.listening s r).tunnel).closeAny (row.listening s r).orphan) := by
  simp [tunnelListening, ht]

end Network

end ConnectionBroker
