import ConnectionBroker.Proofs.Tunnel.Behind
import ConnectionBroker.Proofs.Tunnel.Life

/-!
# Onward

A step in the life of a tunnel only ever leads onward (`Tunnel.Onward`) : from created to closed,
and from accepting to not accepting. With the list of what a life can get to, this is all that there
is to say about starts, closes and the session (`lived`) : a session is closed once, when the tunnel
is closed and nobody starts it any more, and a tunnel that was alive and is not alive any more never
is again.
-/

namespace ConnectionBroker

/-- How far a state is from the beginning. -/
def TunnelState.rank : TunnelState → Nat
  | created => 0
  | starting => 1
  | started => 2
  | closed => 3

theorem TunnelState.rank_le_closed (state : TunnelState) : state.rank ≤ closed.rank := by
  cases state <;> decide

theorem Forwarding.dead_step {f : Forwarding} (h : f.dead = true) (e : Event) :
    (f.step e).dead = true := by
  rcases (f.step_move e).dead with hdead | ⟨hdead, -⟩
  · exact hdead.trans h
  · exact hdead

/-- A tunnel after another one: in no earlier state, and not accepting again. -/
structure Tunnel.Onward (t t' : Tunnel) : Prop where
  rank : t.state.rank ≤ t'.state.rank
  dead : t.forwarding.dead = true → t'.forwarding.dead = true

namespace Tunnel

theorem Onward.refl (t : Tunnel) : t.Onward t :=
  ⟨Nat.le_refl _, id⟩

theorem Onward.trans {t t' t'' : Tunnel} (h : t.Onward t') (h' : t'.Onward t'') : t.Onward t'' :=
  ⟨Nat.le_trans h.rank h'.rank, h'.dead ∘ h.dead⟩

theorem onward_begin (t : Tunnel) : t.Onward t.begin.2 := by
  unfold begin
  split
  case h_1 hs => exact ⟨by simp [hs, TunnelState.rank], id⟩
  all_goals exact .refl t

theorem onward_connected (t : Tunnel) (r : Except BrokerError SessionId) :
    t.Onward (t.connected r).2 := by
  cases r with
  | ok s => exact .refl t
  | error e => exact ⟨t.state.rank_le_closed, id⟩

theorem onward_listening (t : Tunnel) (s : SessionId) (r : Except ListenFailure UInt16) :
    t.Onward (t.listening s r).tunnel := by
  cases r with
  | error e => exact ⟨t.state.rank_le_closed, id⟩
  | ok port =>
    by_cases hs : t.state = .closed
    · simpa [listening, hs] using Onward.refl t
    · rw [listening, if_neg hs]
      refine ⟨?_, id⟩
      cases h : t.state with
      | closed => contradiction
      | _ => simp [TunnelState.rank]

theorem onward_close (t : Tunnel) : t.Onward t.close.1 := by
  unfold close
  split
  · exact .refl t
  · refine ⟨t.state.rank_le_closed, fun h => ?_⟩
    dsimp only
    split <;> exact h

theorem onward_forward (t : Tunnel) (e : Forwarding.Event) : t.Onward (t.forward e) := by
  unfold forward
  split
  · exact ⟨Nat.le_refl _, fun h => Forwarding.dead_step h e⟩
  · exact .refl t

end Tunnel

namespace Life

variable {l l' l'' : Life} {t : Tunnel}

/-- A life after another one. -/
def Onward (l l' : Life) : Prop :=
  ∀ t, l.tunnel? = some t → ∃ t', l'.tunnel? = some t' ∧ t.Onward t'

theorem Onward.refl (l : Life) : l.Onward l :=
  fun t ht => ⟨t, ht, .refl t⟩

theorem Onward.trans (h : l.Onward l') (h' : l'.Onward l'') : l.Onward l'' := by
  intro t ht
  obtain ⟨t', ht', hon⟩ := h t ht
  obtain ⟨t'', ht'', hon'⟩ := h' t' ht'
  exact ⟨t'', ht'', hon.trans hon'⟩

theorem tunnels_closeAny (n : Network) (s : Option SessionId) :
    (n.closeAny s).tunnels = n.tunnels := by
  cases s <;> rfl

theorem tunnels_checkTunnel (n : Network) (i : TunnelId) :
    (n.checkTunnel i).2.tunnels = n.tunnels := by
  simp only [Network.checkTunnel, Network.checkSession]
  split
  · split <;> rfl
  · rfl

theorem tunnels_proceed (l : Life) (i : Nat) (r : Except BrokerError SessionId × Network) :
    (l.proceed i r).net.tunnels = r.2.tunnels := by
  obtain ⟨_ | _, _⟩ := r <;> rfl

/-- What comes of the tunnel in a step. -/
inductive Next (t : Tunnel) : Event → Tunnel → Prop
  | stay {e : Event} : Next t e t
  | begin : Next t .start t.begin.2
  | connected (i : Nat) (r : Except BrokerError SessionTraits) (r' : Except BrokerError SessionId) :
      Next t (.connected i r) (t.connected r').2
  | listening (i : Nat) (s : SessionId) (r : Except ListenFailure UInt16) :
      Next t (.listened i r) (t.listening s r).tunnel
  | close : Next t .close t.close.1
  | drop : Next t .drop t.close.1
  | forward (e : Forwarding.Event) : Next t (.forward e) (t.forward e)

theorem Next.onward {e : Event} {t' : Tunnel} (h : Next t e t') : t.Onward t' := by
  cases h with
  | stay => exact .refl t
  | begin => exact t.onward_begin
  | connected i r r' => exact t.onward_connected r'
  | listening i s r => exact t.onward_listening s r
  | close => exact t.onward_close
  | drop => exact t.onward_close
  | forward e => exact t.onward_forward e

/-- A step that puts something in the place of the tunnel. -/
theorem next_of_set {e : Event} {t' : Tunnel} (ht : l.tunnel? = some t) (hnext : Next t e t')
    (h : l'.net.tunnels = l.net.tunnels.set 0 t') :
    ∃ t', l'.tunnel? = some t' ∧ Next t e t' := by
  obtain ⟨hlt, -⟩ := List.getElem?_eq_some_iff.1 ht
  exact ⟨t', by rw [tunnel?, h, List.getElem?_set_self hlt], hnext⟩

/-- A step that leaves the tunnel alone. -/
theorem next_of_tunnels {e : Event} (ht : l.tunnel? = some t)
    (h : l'.net.tunnels = l.net.tunnels) : ∃ t', l'.tunnel? = some t' ∧ Next t e t' :=
  ⟨t, by rwa [tunnel?, h], .stay⟩

theorem Move.next {e : Event} (m : Move l e l') (h : l.tunnel? = some t) :
    ∃ t', l'.tunnel? = some t' ∧ Next t e t' := by
  have ht : l.net.tunnels[0]? = some t := h
  cases m with
  | stay => exact ⟨t, h, .stay⟩
  | start =>
    refine next_of_set h .begin ?_
    simp only [Life.start, Network.beginTunnel, ht]
    cases hbegin : t.begin with
    | mk answer t' => cases answer <;> rfl
  | connected hp r =>
    cases r with
    | ok traits =>
      refine next_of_set h (.connected _ _ (.ok l.net.sessions.length)) ?_
      simp [Life.connected, Network.openSession, tunnels_proceed, Network.tunnelConnected, ht,
        Network.setTunnel]
    | error e =>
      refine next_of_set h (.connected _ _ (.error e)) ?_
      simp [Life.connected, tunnels_proceed, Network.tunnelConnected, ht, Network.setTunnel]
  | @listened i s hp r =>
    refine next_of_set h (.listening i s r) ?_
    simp [finish, Network.tunnelListening, ht, tunnels_closeAny, Network.setTunnel]
  | close dropped =>
    refine next_of_set h .close ?_
    simp [Network.closeTunnel, ht, tunnels_closeAny, Network.setTunnel]
  | drop dropped =>
    refine next_of_set h .drop ?_
    simp [Network.closeTunnel, ht, tunnels_closeAny, Network.setTunnel]
  | check => exact next_of_tunnels h (tunnels_checkTunnel l.net 0)
  | forward e => exact ⟨t.forward e, by simp [tunnel?, ht], .forward e⟩
  | session s row => exact next_of_tunnels h rfl
  | clock t => exact next_of_tunnels h rfl

theorem Move.onward {e : Event} (m : Move l e l') : l.Onward l' := by
  intro t ht
  obtain ⟨t', ht', hnext⟩ := m.next ht
  exact ⟨t', ht', hnext.onward⟩

theorem onward_run (l : Life) (events : List Event) : l.Onward (l.run events) := by
  induction events generalizing l with
  | nil => exact .refl l
  | cons e events ih => exact (l.step_move e).onward.trans (ih (l.step e))

/-! ## What there is to say of a life -/

/-- What holds at every moment, of the tunnel that there is then. -/
structure Orderly (l : Life) (t : Tunnel) : Prop where
  tunnel : l.tunnel? = some t
  /-- The connector is asked at most once. -/
  connects : l.connects ≤ 1
  /-- At most one start comes to a good end. -/
  successes : l.successes ≤ 1
  /-- The tunnel has a session just while it is started. -/
  session : t.session.isSome = true ↔ t.state = .started
  /-- The accept loop can be told to stop just while the tunnel is started. -/
  stopper : t.stopper = true ↔ t.state = .started
  /-- No session is closed as long as the tunnel is started. -/
  spared : t.state = .started → l.closes = []
  /-- No session is closed twice. -/
  once : ∀ s, l.closes.count s ≤ 1
  /-- With the tunnel closed and no start in progress, every session that the connector gave has
  been closed. -/
  released : t.state = .closed → l.pending = [] →
    ∀ s < l.net.sessions.length, l.closes.count s = 1

theorem Legal.connects_le {st : Stage} (h : Legal st) : st.connects ≤ 1 := by
  cases h <;> simp_all

theorem Legal.successes_le {st : Stage} (h : Legal st) : st.successes ≤ 1 := by
  cases h <;> simp_all

theorem Legal.row {st : Stage} (h : Legal st) : ∃ state session stopper,
    st.rows = [(state, session, stopper)] ∧
      (session.isSome = true ↔ state = .started) ∧ (stopper = true ↔ state = .started) ∧
        (state = .started → st.closed = [] ∧ session = some 0) ∧
          (state = .closed → st.pending = [] → st.closed = List.range st.opened) := by
  cases h <;> exact ⟨_, _, _, rfl, by simp⟩

theorem Legal.count_closed_le {st : Stage} (h : Legal st) (s : SessionId) :
    st.closed.count s ≤ 1 := by
  cases h with
  | ended =>
    rw [List.nodup_range.count]
    split <;> decide
  | _ => simp

theorem Legal.orderly {l : Life} (h : Legal l.stage) : ∃ t, l.Orderly t := by
  obtain ⟨state, session, stopper, hrows, hsession, hstopper, hstarted, hclosed⟩ := h.row
  obtain ⟨t, ht, rfl, rfl, rfl⟩ := tunnel_of_rows hrows
  exact ⟨t, {
    tunnel := by rw [tunnel?, ht]; rfl
    connects := h.connects_le
    successes := h.successes_le
    session := hsession
    stopper := hstopper
    spared := fun hs => (hstarted hs).1
    once := h.count_closed_le
    released := fun hs hp s hlt => by
      have hcloses : l.closes = List.range l.net.sessions.length := hclosed hs hp
      rw [hcloses, List.nodup_range.count, if_pos (List.mem_range.2 hlt)] }⟩

/-- A started tunnel that accepts is as alive as its session. -/
theorem Legal.alive_iff {l : Life} (h : Legal l.stage) {t : Tunnel} (ht : l.tunnel? = some t) :
    l.Alive ↔ t.state = .started ∧ t.forwarding.dead = false ∧ l.Answers 0 := by
  obtain ⟨state, session, stopper, hrows, -, -, hstarted, -⟩ := h.row
  obtain ⟨t', ht', rfl, rfl, rfl⟩ := tunnel_of_rows hrows
  obtain rfl : t' = t := by simpa [tunnel?, ht'] using ht
  have hlookup : l.net.tunnels[0]? = some t' := ht
  simp only [Alive, Network.checkTunnel, hlookup, Option.bind_some, Tunnel.vitalSession]
  by_cases hvital : t'.state = .started ∧ t'.forwarding.dead = false
  · rw [if_pos hvital, (hstarted hvital.1).2]
    exact ⟨fun h => ⟨hvital.1, hvital.2, h⟩, fun h => h.2.2⟩
  · rw [if_neg hvital]
    exact ⟨fun h => (Bool.false_ne_true h).elim, fun h => (hvital ⟨h.1, h.2.1⟩).elim⟩

theorem eq_started_of_rank {state : TunnelState} (h : TunnelState.started.rank ≤ state.rank)
    (h' : state.rank ≤ TunnelState.started.rank) : state = .started := by
  cases state <;> simp_all [TunnelState.rank]

theorem eq_closed_of_rank {state : TunnelState} (h : TunnelState.closed.rank ≤ state.rank) :
    state = .closed := by
  cases state <;> simp_all [TunnelState.rank]

/-- A tunnel that was alive and is not alive any more never is again, unless its session comes
back. -/
theorem Legal.not_alive_again {l : Life} (h : Legal l.stage) (mid late : List Event)
    (hdies : l.Answers 0 → ¬(l.run mid).Answers 0 → ¬((l.run mid).run late).Answers 0)
    (halive : l.Alive) (hdead : ¬(l.run mid).Alive) : ¬((l.run mid).run late).Alive := by
  obtain ⟨t, ho⟩ := h.orderly
  obtain ⟨hstate, -, hanswers⟩ := (h.alive_iff ho.tunnel).1 halive
  obtain ⟨t₁, ht₁, hon₁⟩ := l.onward_run mid t ho.tunnel
  obtain ⟨t₂, ht₂, hon₂⟩ := (l.run mid).onward_run late t₁ ht₁
  intro hagain
  obtain ⟨hstate₂, haccepts₂, hanswers₂⟩ := (((h.run mid).run late).alive_iff ht₂).1 hagain
  -- In between, the tunnel was started and accepted, so it was its session that did not answer.
  have hstate₁ : t₁.state = .started :=
    eq_started_of_rank (hstate ▸ hon₁.rank) (hstate₂ ▸ hon₂.rank)
  have haccepts₁ : t₁.forwarding.dead = false :=
    Bool.eq_false_iff.2 fun hd => by simp [hon₂.dead hd] at haccepts₂
  have hmute : ¬(l.run mid).Answers 0 := fun ha =>
    hdead (((h.run mid).alive_iff ht₁).2 ⟨hstate₁, haccepts₁, ha⟩)
  exact hdies hanswers hmute hanswers₂

/-- The tunnel is closed. -/
def Closed (l : Life) : Prop :=
  ∃ t, l.tunnel? = some t ∧ t.state = .closed

theorem Closed.run {l : Life} (h : l.Closed) (events : List Event) : (l.run events).Closed := by
  obtain ⟨t, ht, hclosed⟩ := h
  obtain ⟨t', ht', hon⟩ := l.onward_run events t ht
  exact ⟨t', ht', eq_closed_of_rank (hclosed ▸ hon.rank)⟩

theorem run_append (l : Life) (early late : List Event) :
    l.run (early ++ late) = (l.run early).run late :=
  List.foldl_append

/-- In every life of a tunnel, whatever starts, closes and losses it is made of : at every moment
the session is where it should be and was closed as often as it should be, a closed tunnel stays
closed, and if no session comes back to life, neither does the tunnel. -/
theorem lived (target : SshTarget) (host : String) (port : UInt16) (early mid late : List Event) :
    (∃ t, ((born target host port).run early).Orderly t) ∧
      (((born target host port).run early).Closed →
        ((born target host port).run (early ++ mid)).Closed) ∧
      ((∀ s, ((born target host port).run early).Answers s →
          ¬((born target host port).run (early ++ mid)).Answers s →
            ¬((born target host port).run (early ++ mid ++ late)).Answers s) →
        ((born target host port).run early).Alive →
          ¬((born target host port).run (early ++ mid)).Alive →
            ¬((born target host port).run (early ++ mid ++ late)).Alive) := by
  have h : Legal ((born target host port).run early).stage :=
    (legal_born target host port).run early
  simp only [run_append]
  exact ⟨h.orderly, fun hclosed => hclosed.run mid, fun hdies halive hdead =>
    h.not_alive_again mid late (hdies 0) halive hdead⟩

/-- A tunnel whose session is lost while a connection is forwarded, and that is started again and
closed more than once after that. -/
theorem lived_after_loss :
    ¬((born ⟨"h", 22, "u", .agent⟩ "db" 5432).run
      ([.start, .connected 0 (.ok .lasting), .listened 0 (.ok 4096)] ++
        [.forward .connection, .session 0 (.sever (.fresh ⟨"h", 22, "u", .agent⟩ .lasting))] ++
          [.start, .close, .close, .drop])).Alive := by
  refine (lived _ _ _ _ _ _).2.2 ?_ (by decide) (by decide)
  -- There is only one session that could answer.
  rintro (_ | s)
  · decide
  · exact fun h => (Bool.false_ne_true h).elim

end Life

end ConnectionBroker
