import ConnectionBroker.Proofs.Tunnel.Onward

/-!
# Pairs go their own way

A started tunnel forwards each connection that it accepts through a pair of its own. Whatever comes
between : the pairs that relay are counted exactly, no pair dials twice or elsewhere than to the
endpoint, and the end of a pair is noticed by no other pair and by nobody who asks whether the
tunnel is alive. The loop dies of an accept error that it takes before the stop signal, and of
nothing else; after the signal it accepts nothing, and the pairs that relay go on.

Of a life the step that matters is what happens behind the tunnel (`Forwarding.Move`) and the stop
signal that a close sends; every other step leaves alone what is behind the tunnel
(`Life.Next.forwarding`).
-/

namespace ConnectionBroker

open Forwarding (Exact)

namespace Tunnel

variable {t : Tunnel}

/-- What is behind a tunnel that is closed : the loop was told to stop if there is one. -/
theorem forwarding_close (t : Tunnel) :
    t.close.1.forwarding = t.forwarding ∨ t.close.1.forwarding = t.forwarding.stop := by
  unfold close
  split
  · exact .inl rfl
  · dsimp only
    split
    · exact .inr rfl
    · exact .inl rfl

theorem forwarding_begin (t : Tunnel) : t.begin.2.forwarding = t.forwarding := by
  unfold begin
  split <;> rfl

theorem forwarding_connected (t : Tunnel) (r : Except BrokerError SessionId) :
    (t.connected r).2.forwarding = t.forwarding := by
  cases r <;> rfl

theorem forwarding_listening (t : Tunnel) (s : SessionId) (r : Except ListenFailure UInt16) :
    (t.listening s r).tunnel.forwarding = t.forwarding := by
  cases r with
  | error e => rfl
  | ok port =>
    rw [listening]
    split <;> rfl

/-- What happens behind a tunnel is a step of what is behind it. -/
theorem move_forward (t : Tunnel) (e : Forwarding.Event) :
    Forwarding.Move t.forwarding e (t.forward e).forwarding := by
  unfold forward
  split
  · exact t.forwarding.step_move e
  · exact .idle

end Tunnel

namespace Life

variable {l l' : Life} {t t' : Tunnel} {e : Event} {p : Nat}

/-- What comes of what is behind the tunnel, in a step. -/
inductive Behind (f : Forwarding) : Event → Forwarding → Prop
  | idle {e : Event} : Behind f e f
  | stop {e : Event} (he : e = .close ∨ e = .drop) : Behind f e f.stop
  | move {e : Forwarding.Event} {f' : Forwarding} (h : Forwarding.Move f e f') :
      Behind f (.forward e) f'

theorem Next.behind (h : Next t e t') : Behind t.forwarding e t'.forwarding := by
  cases h with
  | stay => exact .idle
  | begin => exact t.forwarding_begin ▸ .idle
  | connected i r r' => exact t.forwarding_connected r' ▸ .idle
  | listening i s r => exact t.forwarding_listening s r ▸ .idle
  | close =>
    rcases t.forwarding_close with hsame | hstop
    · exact hsame ▸ .idle
    · exact hstop ▸ .stop (.inl rfl)
  | drop =>
    rcases t.forwarding_close with hsame | hstop
    · exact hsame ▸ .idle
    · exact hstop ▸ .stop (.inr rfl)
  | forward e => exact .move (t.move_forward e)

namespace Behind

variable {f f' : Forwarding}

theorem endpoint (h : Behind f e f') : f'.host = f.host ∧ f'.port = f.port := by
  cases h with
  | idle | stop => exact ⟨rfl, rfl⟩
  | move m => exact m.endpoint

theorem exact (h : Behind f e f') (hf : Exact f) : Exact f' := by
  cases h with
  | idle => exact hf
  | stop => exact hf.stop
  | move m => exact hf.move m

theorem stopped (h : Behind f e f') (hstopped : f.stopped = true) : f'.stopped = true := by
  cases h with
  | idle => exact hstopped
  | stop => rfl
  | move m => exact m.stopped.trans hstopped

theorem dead (h : Behind f e f') :
    f'.dead = f.dead ∨
      e = .forward .turn ∧ f.stopped = false ∧ f.arrivals.head? = some .failure := by
  cases h with
  | idle | stop => exact .inl rfl
  | move m =>
    rcases m.dead with hsame | ⟨-, rfl, hgoes, hfailure⟩
    · exact .inl hsame
    · exact .inr ⟨rfl, hgoes, hfailure⟩

theorem length_pairs (h : Behind f e f') (hstopped : f.stopped = true) :
    f'.pairs.length = f.pairs.length := by
  cases h with
  | idle | stop => rfl
  | move m => exact m.length_pairs hstopped

theorem relaying (h : Behind f e f') (hp : f.pairs[p]? = some .relaying)
    (he : e ≠ .forward (.relayEnded p)) : f'.pairs[p]? = some .relaying := by
  cases h with
  | idle | stop => exact hp
  | move m => exact m.relaying hp fun heq => he (congrArg Event.forward heq)

end Behind

theorem step_behind (ht : l.tunnel? = some t) (e : Event) :
    ∃ t', (l.step e).tunnel? = some t' ∧ Behind t.forwarding e t'.forwarding := by
  obtain ⟨t', ht', hnext⟩ := (l.step_move e).next ht
  exact ⟨t', ht', hnext.behind⟩

/-! ## Whole lives -/

/-- In every life, what is behind the tunnel keeps its books, and leads to the endpoint. -/
theorem exact_run (ht : l.tunnel? = some t) (hexact : Exact t.forwarding) (events : List Event) :
    ∃ t', (l.run events).tunnel? = some t' ∧ Exact t'.forwarding ∧
      t'.forwarding.host = t.forwarding.host ∧ t'.forwarding.port = t.forwarding.port := by
  induction events generalizing l t with
  | nil => exact ⟨t, ht, hexact, rfl, rfl⟩
  | cons e events ih =>
    obtain ⟨t₁, ht₁, hbehind⟩ := step_behind ht e
    obtain ⟨t', ht', hexact', hhost, hport⟩ := ih ht₁ (hbehind.exact hexact)
    obtain ⟨hhost₁, hport₁⟩ := hbehind.endpoint
    exact ⟨t', ht', hexact', hhost.trans hhost₁, hport.trans hport₁⟩

/-- After the stop signal nothing is accepted, and nothing is taken for an accept error. -/
theorem stopped_run (ht : l.tunnel? = some t) (hstopped : t.forwarding.stopped = true)
    (events : List Event) : ∃ t', (l.run events).tunnel? = some t' ∧
      t'.forwarding.pairs.length = t.forwarding.pairs.length ∧
      t'.forwarding.dead = t.forwarding.dead := by
  induction events generalizing l t with
  | nil => exact ⟨t, ht, rfl, rfl⟩
  | cons e events ih =>
    obtain ⟨t₁, ht₁, hbehind⟩ := step_behind ht e
    obtain ⟨t', ht', hlength, hdead⟩ := ih ht₁ (hbehind.stopped hstopped)
    refine ⟨t', ht', hlength.trans (hbehind.length_pairs hstopped), hdead.trans ?_⟩
    refine hbehind.dead.resolve_right ?_
    rintro ⟨-, hgoes, -⟩
    exact absurd hstopped (Bool.eq_false_iff.1 hgoes)

/-- A pair that relays goes on until its own relay ends. -/
theorem relaying_run (ht : l.tunnel? = some t) (hp : t.forwarding.pairs[p]? = some .relaying)
    {events : List Event} (hevents : .forward (.relayEnded p) ∉ events) :
    ∃ t', (l.run events).tunnel? = some t' ∧ t'.forwarding.pairs[p]? = some .relaying := by
  induction events generalizing l t with
  | nil => exact ⟨t, ht, hp⟩
  | cons e events ih =>
    obtain ⟨t₁, ht₁, hbehind⟩ := step_behind ht e
    have hne : e ≠ .forward (.relayEnded p) := fun heq => hevents (heq ▸ List.mem_cons_self)
    exact ih ht₁ (hbehind.relaying hp hne) fun hmem => hevents (List.mem_cons_of_mem _ hmem)

/-- A moment in a life at which the loop takes an accept error, before it is told to stop. -/
def FailsBefore (l : Life) (events : List Event) : Prop :=
  ∃ before after t, events = before ++ .forward .turn :: after ∧
    (l.run before).tunnel? = some t ∧ t.forwarding.stopped = false ∧
    t.forwarding.arrivals.head? = some .failure

theorem failsBefore_of_dead (ht : l.tunnel? = some t) (hdead : t.forwarding.dead = false)
    {events : List Event} {t' : Tunnel} (ht' : (l.run events).tunnel? = some t')
    (hdead' : t'.forwarding.dead = true) : l.FailsBefore events := by
  induction events generalizing l t with
  | nil =>
    obtain rfl : t = t' := Option.some.inj (ht.symm.trans ht')
    rw [hdead] at hdead'
    cases hdead'
  | cons e events ih =>
    obtain ⟨t₁, ht₁, hbehind⟩ := step_behind ht e
    rcases hbehind.dead with hsame | ⟨rfl, hgoes, hfailure⟩
    · obtain ⟨before, after, t₀, rfl, h⟩ := ih ht₁ (hsame.trans hdead) ht'
      exact ⟨e :: before, after, t₀, rfl, h⟩
    · exact ⟨[], events, t, rfl, ht, hgoes, hfailure⟩

/-! ## The stop signal and the state -/

/-- A tunnel that has a local port is started, or it is closed and its loop was told to stop; and
no other loop was. -/
structure Signalled (t : Tunnel) : Prop where
  listening : t.localPort.isSome = true →
    t.state = .started ∨ t.state = .closed ∧ t.forwarding.stopped = true
  stopped : t.forwarding.stopped = true → t.state = .closed

/-- No start is in progress beside a started tunnel. -/
theorem Legal.pending_of_started (h : Legal l.stage) (ht : l.tunnel? = some t)
    (hstarted : t.state = .started) : l.pending = [] := by
  have hpending : l.stage.pending = l.pending := rfl
  have hrow : (t.state, t.session, t.stopper) ∈ l.stage.rows :=
    List.mem_map_of_mem (List.mem_of_getElem? ht)
  rw [hstarted] at hrow
  rw [← hpending]
  generalize l.stage = st at h hrow
  cases h <;> simp_all

theorem Signalled.connected (h : Signalled t) (hstate : t.state ≠ .started)
    (r : Except BrokerError SessionId) : Signalled (t.connected r).2 := by
  cases r with
  | ok s => exact h
  | error e =>
    -- A tunnel that has a local port already was closed in the meantime, with its signal.
    exact ⟨fun hport => .inr ⟨rfl, ((h.listening hport).resolve_left hstate).2⟩, fun _ => rfl⟩

theorem Signalled.listened (h : Signalled t) (hstate : t.state ≠ .started) (s : SessionId)
    (r : Except ListenFailure UInt16) : Signalled (t.listening s r).tunnel := by
  cases r with
  | error e =>
    exact ⟨fun hport => .inr ⟨rfl, ((h.listening hport).resolve_left hstate).2⟩, fun _ => rfl⟩
  | ok port =>
    rw [Tunnel.listening]
    split
    · exact h
    · next hopen => exact ⟨fun _ => .inl rfl, fun hstopped => absurd (h.stopped hstopped) hopen⟩

theorem Signalled.close (h : Signalled t) (hstopper : t.state = .started → t.stopper = true) :
    Signalled t.close.1 := by
  unfold Tunnel.close
  split
  · exact h
  · next hopen =>
    refine ⟨fun hport => .inr ⟨rfl, ?_⟩, fun _ => rfl⟩
    have hstarted : t.state = .started := (h.listening hport).resolve_right fun hc => hopen hc.1
    rw [if_pos (hstopper hstarted)]
    rfl

theorem Signalled.forward (h : Signalled t) (e : Forwarding.Event) : Signalled (t.forward e) := by
  have hstopped := (t.move_forward e).stopped
  unfold Tunnel.forward at hstopped ⊢
  split
  · next hport =>
    rw [if_pos hport] at hstopped
    exact ⟨fun hport => (h.listening hport).imp_right (And.imp_right hstopped.trans),
      fun hs => h.stopped (hstopped.symm.trans hs)⟩
  · exact h

theorem Signalled.begin (h : Signalled t) : Signalled t.begin.2 := by
  unfold Tunnel.begin
  split
  case h_1 hcreated =>
    refine ⟨fun hport => ?_, fun hs => ?_⟩
    · rcases h.listening hport with hstarted | ⟨hclosed, -⟩
      · cases hcreated.symm.trans hstarted
      · cases hcreated.symm.trans hclosed
    · cases hcreated.symm.trans (h.stopped hs)
  all_goals exact h

theorem Signalled.step (h : Signalled t) (hlegal : Legal l.stage) (ht : l.tunnel? = some t)
    (ht' : (l.step e).tunnel? = some t') (hnext : Next t e t') : Signalled t' := by
  -- A start that goes on beside a started tunnel does not exist.
  have hidle (hstarted : t.state = .started) (hstep : l.pending = [] → l.step e = l) :
      Signalled t' := by
    rw [hstep (hlegal.pending_of_started ht hstarted), ht] at ht'
    exact Option.some.inj ht' ▸ h
  cases hnext with
  | stay => exact h
  | begin => exact h.begin
  | connected i r r' =>
    by_cases hstarted : t.state = .started
    · exact hidle hstarted fun hpending => by simp [Life.step, hpending]
    · exact h.connected hstarted r'
  | listening i s r =>
    by_cases hstarted : t.state = .started
    · exact hidle hstarted fun hpending => by simp [Life.step, hpending]
    · exact h.listened hstarted s r
  | close | drop =>
    obtain ⟨t₀, ho⟩ := hlegal.orderly
    obtain rfl : t₀ = t := Option.some.inj (ho.tunnel.symm.trans ht)
    exact h.close ho.stopper.2
  | forward e => exact h.forward e

theorem signalled_run (hlegal : Legal l.stage) (ht : l.tunnel? = some t) (h : Signalled t)
    (events : List Event) (ht' : (l.run events).tunnel? = some t') : Signalled t' := by
  induction events generalizing l t with
  | nil =>
    obtain rfl : t = t' := Option.some.inj (ht.symm.trans ht')
    exact h
  | cons e events ih =>
    obtain ⟨t₁, ht₁, hnext⟩ := (l.step_move e).next ht
    exact ih (hlegal.move (l.step_move e)) ht₁ (h.step hlegal ht ht₁ hnext) ht'

/-! ## Liveness -/

/-- Nobody who asks whether the tunnel is alive notices what does not end the loop. -/
theorem alive_forward (ht : l.tunnel? = some t) {e : Forwarding.Event}
    (hdead : (t.forward e).forwarding.dead = t.forwarding.dead) :
    (l.step (.forward e)).Alive ↔ l.Alive := by
  have hvital : (t.forward e).vitalSession = t.vitalSession := by
    have hrow : (t.forward e).state = t.state ∧ (t.forward e).session = t.session := by
      unfold Tunnel.forward
      split <;> exact ⟨rfl, rfl⟩
    rw [Tunnel.vitalSession, Tunnel.vitalSession, hdead, hrow.1, hrow.2]
  have ht : l.net.tunnels[0]? = some t := ht
  simp only [Alive, Life.step, Network.checkTunnel, List.getElem?_modify_eq, ht,
    Option.map_eq_map, Option.map_some, Option.bind_some, hvital]
  cases t.vitalSession with
  | none => rfl
  | some s =>
    dsimp only [Network.checkSession]
    cases l.net.sessions[s]? <;> rfl

/-- What is behind the tunnel of a life, and what it is about to do. -/
structure Forwards (host : String) (port : UInt16) (l : Life) (t : Tunnel) : Prop where
  tunnel : l.tunnel? = some t
  /-- No pair dials more than once. -/
  once : ∀ p, (t.forwarding.dials.map PairDial.pair).count p ≤ 1
  /-- Every dial is that of a pair that was accepted, and leads to the remote endpoint. -/
  remote : ∀ d ∈ t.forwarding.dials,
    d.pair < t.forwarding.pairs.length ∧ d.host = host ∧ d.port = port
  active : t.activeConnections = t.forwarding.pairs.count PairPhase.relaying
  /-- There is something to be taken off the count when a relay ends. -/
  counted : ∀ p : Nat, t.forwarding.pairs[p]? = some .relaying → 0 < t.activeConnections
  drained : (∀ phase ∈ t.forwarding.pairs, phase = .ended) → t.activeConnections = 0
  /-- The stop signal is sent when a started tunnel is closed. -/
  signalled : t.localPort.isSome = true → (t.forwarding.stopped = true ↔ t.state = .closed)

theorem forwards_of_exact {host : String} {port : UInt16} (ht : l.tunnel? = some t)
    (h : Exact t.forwarding) (hhost : t.forwarding.host = host) (hport : t.forwarding.port = port)
    (hsignalled : Signalled t) : Forwards host port l t where
  tunnel := ht
  once := List.nodup_iff_count.1 h.once
  remote d hd := by
    obtain ⟨phase, hpair, -⟩ := h.dialled d hd
    obtain ⟨hlt, -⟩ := List.getElem?_eq_some_iff.1 hpair
    exact ⟨hlt, (h.remote d hd).1.trans hhost, (h.remote d hd).2.trans hport⟩
  active := h.active
  counted _ := h.active_pos
  drained := h.active_eq_zero
  signalled hlocal := by
    refine ⟨hsignalled.stopped, fun hclosed => ?_⟩
    rcases hsignalled.listening hlocal with hstarted | ⟨-, hstopped⟩
    · cases hclosed.symm.trans hstarted
    · exact hstopped

/-- The end of a pair, or of its dial, leaves everything else as it is. -/
theorem ends_alone (ht : l.tunnel? = some t) {e : Forwarding.Event}
    (he : e = .dialFailed p ∨ e = .relayEnded p) :
    ∃ t', (l.step (.forward e)).tunnel? = some t' ∧
      (∀ q : Nat, q ≠ p → t'.forwarding.pairs[q]? = t.forwarding.pairs[q]?) ∧
      t'.forwarding.dead = t.forwarding.dead ∧ ((l.step (.forward e)).Alive ↔ l.Alive) := by
  have ht₀ : l.net.tunnels[0]? = some t := ht
  obtain ⟨hdead, -, -, -, -, hothers⟩ := (t.move_forward e).ends_alone he
  exact ⟨t.forward e, by simp [tunnel?, Life.step, ht₀], hothers, hdead, alive_forward ht hdead⟩

/-- In every life of a tunnel, whatever connections, accept errors, dials, relays and closes it is
made of, and in whatever order : at every moment the books are right; the end of a pair or a
failed dial changes no other pair and not whether the tunnel is alive; if accepting failed, it
failed before the stop signal; and after the signal no connection is accepted, while each pair
that relays goes on until its own relay ends. -/
theorem pairs_go_their_own_way (target : SshTarget) (host : String) (port : UInt16)
    (early : List Event) : ∃ t, Forwards host port ((born target host port).run early) t ∧
      (∀ (p : Nat) (e : Forwarding.Event), e = .dialFailed p ∨ e = .relayEnded p →
        ∃ t', ((born target host port).run (early ++ [.forward e])).tunnel? = some t' ∧
          (∀ q : Nat, q ≠ p → t'.forwarding.pairs[q]? = t.forwarding.pairs[q]?) ∧
          t'.forwarding.dead = t.forwarding.dead ∧
          (((born target host port).run (early ++ [.forward e])).Alive ↔
            ((born target host port).run early).Alive)) ∧
      (t.forwarding.dead = true → (born target host port).FailsBefore early) ∧
      ∀ late, ∃ t', ((born target host port).run (early ++ late)).tunnel? = some t' ∧
        (t.forwarding.stopped = true →
          t'.forwarding.pairs.length = t.forwarding.pairs.length ∧
          t'.forwarding.dead = t.forwarding.dead) ∧
        ∀ p : Nat, t.forwarding.pairs[p]? = some .relaying →
          .forward (.relayEnded p) ∉ late → t'.forwarding.pairs[p]? = some .relaying := by
  have hlegal := legal_born target host port
  have hborn : (born target host port).tunnel? = some (.new target host port) := rfl
  obtain ⟨t, ht, hexact, hhost, hport⟩ :=
    exact_run hborn (Forwarding.exact_start host port) early
  have hsignalled : Signalled t := signalled_run hlegal hborn ⟨nofun, nofun⟩ early ht
  refine ⟨t, forwards_of_exact ht hexact hhost hport hsignalled, fun p e he => ?_, fun hdead => ?_,
    fun late => ?_⟩
  · rw [run_append]
    exact ends_alone ht he
  · exact failsBefore_of_dead hborn rfl ht hdead
  · rw [run_append]
    obtain ⟨t', ht', -⟩ := exact_run ht hexact late
    refine ⟨t', ht', fun hstopped => ?_, fun p hp hlate => ?_⟩
    · obtain ⟨t₁, ht₁, hkept⟩ := stopped_run ht hstopped late
      exact Option.some.inj (ht₁.symm.trans ht') ▸ hkept
    · obtain ⟨t₁, ht₁, hrelays⟩ := relaying_run ht hp hlate
      exact Option.some.inj (ht₁.symm.trans ht') ▸ hrelays

/-- Two pairs relay when the tunnel is closed; a connection and an accept error that still wait
then come to nothing, and one pair goes on when the other has ended. -/
theorem pairs_go_their_own_way_after_close :
    ∃ t', ((born ⟨"h", 22, "u", .agent⟩ "db" 5432).run
        ([.start, .connected 0 (.ok .lasting), .listened 0 (.ok 4096), .forward .connection,
            .forward .turn, .forward .connection, .forward .turn, .forward (.dial 0),
            .forward (.dialled 0), .forward (.dial 1), .forward (.dialled 1),
            .forward .connection, .forward .acceptError, .close] ++
          [.forward .turn, .forward (.relayEnded 1)])).tunnel? = some t' ∧
      t'.forwarding.pairs.length = 2 ∧ t'.forwarding.dead = false ∧
      t'.forwarding.pairs[0]? = some .relaying := by
  obtain ⟨t, h, -, -, hlate⟩ := pairs_go_their_own_way ⟨"h", 22, "u", .agent⟩ "db" 5432
    [.start, .connected 0 (.ok .lasting), .listened 0 (.ok 4096), .forward .connection,
      .forward .turn, .forward .connection, .forward .turn, .forward (.dial 0),
      .forward (.dialled 0), .forward (.dial 1), .forward (.dialled 1),
      .forward .connection, .forward .acceptError, .close]
  obtain rfl := Option.some.inj (h.tunnel.symm.trans rfl)
  obtain ⟨t', ht', hstopped, hrelays⟩ := hlate [.forward .turn, .forward (.relayEnded 1)]
  obtain ⟨hlength, hdead⟩ := hstopped rfl
  exact ⟨t', ht', hlength, hdead, hrelays 0 rfl (by simp)⟩

end Life

end ConnectionBroker
