import ConnectionBroker.Proofs.Broker.Attempt

/-!
# All or nothing

A build is always in one of a few stages, each with all that there is to know of it
(`Attempt.Stage`). Others leave it in its stage (`Attempt.Stage.disturb`), and an answer takes it to
a later one (`Attempt.Stage.answer`). It waits for three answers at most (`Attempt.waits_run`), and
at its end it is all or nothing (`Attempt.all_or_nothing`).
-/

namespace ConnectionBroker

namespace Attempt

variable {r : Request} {o : Outcomes} {n net net' : Network} {strategy : Strategy} {a : Attempt}

/-- How far a build can be. -/
inductive Stage (r : Request) (o : Outcomes) (n : Network) : Strategy → Attempt → Prop
  | session {target : SshTarget} {net : Network} (hnet : n.Leaves none [] net) :
      Stage r o n .channelDial
        ⟨.waiting (.session r.config.withEngineDefaults target), net, [], []⟩
  | tunnelSession {target : SshTarget} {t : TunnelId} {net : Network} (hnet : n.Leaves none [] net)
      (hrow : net.tunnels[t]?.map Tunnel.quiet =
        some (.opening target r.config.host r.config.port)) :
      Stage r o n .localForward
        ⟨.waiting (.tunnelSession r.config.withEngineDefaults target t), net, [], []⟩
  | localPort {target : SshTarget} {t : TunnelId} {s : SessionId} {net : Network}
      {traits : SessionTraits} (hconnector : o.connector = .ok traits)
      (hnet : n.Leaves none [s] net)
      (hrow : net.tunnels[t]?.map Tunnel.quiet =
        some (.opening target r.config.host r.config.port)) :
      Stage r o n .localForward
        ⟨.waiting (.localPort r.config.withEngineDefaults t s), net, [s], []⟩
  | service {strategy : Strategy} {hop : Hop} {e : Endpoint} {service : ServiceId} {net : Network}
      {opened : List SessionId} (hnet : n.Leaves none opened net)
      (hhop : Hopped r o net strategy hop e opened) :
      Stage r o n strategy ⟨.waiting (.service hop e service), net, opened, [(service, e)]⟩
  | ended {strategy : Strategy} {a : Attempt} {b : Cache.Built} (hb : a.progress = .ended b)
      (h : AllOrNothing r strategy o n a) : Stage r o n strategy a

/-- What is left as it was does not take a build out of its stage. -/
theorem Stage.leave {k : Construction} {opened : List SessionId}
    {asked : List (ServiceId × Endpoint)}
    (h : Stage r o n strategy ⟨.waiting k, net, opened, asked⟩)
    (hl : net.Leaves k.tunnel? opened net') :
    Stage r o n strategy ⟨.waiting k, net', opened, asked⟩ := by
  cases h with
  | session hnet => exact .session (hnet.trans hl.forget)
  | tunnelSession hnet hrow =>
    exact .tunnelSession (hnet.trans hl.forget) ((hl.tunnel _ rfl).trans hrow)
  | localPort hconnector hnet hrow =>
    exact .localPort hconnector (hnet.trans hl.forget) ((hl.tunnel _ rfl).trans hrow)
  | service hnet hhop => exact .service (hnet.trans hl.forget) (hhop.leave _ hl)
  | ended hb => cases hb

/-- A build has its tunnel. -/
theorem Stage.lt_of_tunnel? {k : Construction} {opened : List SessionId}
    {asked : List (ServiceId × Endpoint)} {t : TunnelId}
    (h : Stage r o n strategy ⟨.waiting k, net, opened, asked⟩) (ht : k.tunnel? = some t) :
    t < net.tunnels.length := by
  have hlt : ∀ {row : Tunnel}, net.tunnels[t]?.map Tunnel.quiet = some row →
      t < net.tunnels.length := by
    intro row hrow
    obtain ⟨_, hrow, -⟩ := Option.map_eq_some_iff.1 hrow
    exact (List.getElem?_eq_some_iff.1 hrow).1
  cases h with
  | session => cases ht
  | tunnelSession _ hrow | localPort _ _ hrow =>
    obtain rfl := Option.some.inj ht
    exact hlt hrow
  | service _ hhop =>
    cases hhop with
    | direct | channel => cases ht
    | tunnel _ _ hrow =>
      obtain rfl := Option.some.inj ht
      exact hlt hrow
  | ended hb => cases hb

/-- Others leave a build in its stage. -/
theorem Stage.disturb (h : Stage r o n strategy a) (d : Disturbance) :
    Stage r o n strategy (a.disturb d) := by
  obtain ⟨progress, net, opened, asked⟩ := a
  cases progress with
  | ended b => exact h
  | waiting k =>
    simp only [Attempt.disturb]
    split
    · rename_i hd
      exact h.leave (Network.leaves_apply hd fun t ht => h.lt_of_tunnel? ht)
    · exact h

/-- Without its hop a build comes to nothing. -/
theorem AllOrNothing.of_unreached {reason : String} (hno : ¬o.Reaches strategy)
    (hp : a.progress = .ended (.failed (.tunnelStartFailed reason))) (hasked : a.asked = [])
    (hclosed : ∀ s ∈ a.opened, a.net.sessionCloses s = n.sessionCloses s + 1) :
    AllOrNothing r strategy o n a where
  served := fun h => absurd h hno
  refused := fun h => absurd h hno
  unreached := fun _ => ⟨reason, hp, hasked⟩
  closed := fun _ _ => hclosed
  kept := fun _ hres => by simp [hp] at hres

/-- With its hop and its service a build has all. -/
theorem AllOrNothing.of_served {hop : Hop} {e : Endpoint} {service : ServiceId}
    (hhop : Hopped r o a.net strategy hop e a.opened) (hnet : n.Leaves none a.opened a.net)
    (hfactory : o.factory = .ok ()) (hp : a.progress = .ended (.resource ⟨service, hop⟩))
    (hasked : a.asked = [(service, e)]) : AllOrNothing r strategy o n a where
  served := fun _ _ => ⟨service, hop, e, hp, hasked, hhop.opened_eq, hhop.suits⟩
  refused := fun _ err herr => by simp [hfactory] at herr
  unreached := fun h => absurd hhop.reaches h
  closed := fun _ hres => by simp [hp] at hres
  kept := fun _ _ s hs => hnet.closes s (.inl hs)

/-- The error of a factory becomes a failure to build a service, unless it is one. -/
theorem exists_factoryError (err : BrokerError) : ∃ reason,
    Construction.factoryError err = .serviceConstructionFailed reason ∧
      ∀ given, err = .serviceConstructionFailed given → reason = given := by
  cases err with
  | serviceConstructionFailed reason =>
    exact ⟨reason, rfl, fun _ h => BrokerError.serviceConstructionFailed.inj h⟩
  | _ => exact ⟨_, rfl, nofun⟩

/-- A build that has closed its hop has nothing left that closes itself. -/
theorem dropped_closeHop (hop : Hop) (e : Endpoint) (service : ServiceId) (err : BrokerError)
    (n : Network) : dropped (.service hop e service) (.ended (.failed err)) (n.closeHop hop) =
      n.closeHop hop := by
  cases hop with
  | direct | channel => rfl
  | tunnel t => exact n.closeTunnel_closeTunnel t

/-- A build whose service is refused comes to nothing. -/
theorem AllOrNothing.of_refused {hop : Hop} {e : Endpoint} {service : ServiceId}
    {err : BrokerError} (hhop : Hopped r o net strategy hop e a.opened)
    (hnet : n.Leaves none a.opened net) (hfactory : o.factory = .error err)
    (hp : a.progress = .ended (.failed (Construction.factoryError err)))
    (hclose : a.net = net.closeHop hop) (hasked : a.asked = [(service, e)]) :
    AllOrNothing r strategy o n a where
  served := fun _ h => by simp [hfactory] at h
  refused := fun _ err' herr => by
    obtain rfl : err = err' := Except.error.inj (hfactory.symm.trans herr)
    obtain ⟨reason, hreason, hgiven⟩ := exists_factoryError err
    exact ⟨reason, by rw [hp, hreason], by rw [hasked]; rfl, hgiven⟩
  unreached := fun h => absurd hhop.reaches h
  closed := fun _ _ s hs => by rw [hclose, hhop.closes hnet s hs]
  kept := fun _ hres => by simp [hp] at hres

/-- A build asks the factory over its hop. -/
theorem Stage.askFactory {hop : Hop} {e : Endpoint} {opened : List SessionId}
    (hnet : n.Leaves none opened net) (hhop : Hopped r o net strategy hop e opened) :
    Stage r o n strategy ⟨.waiting (Construction.askFactory hop e net).1,
      (Construction.askFactory hop e net).2, opened,
      (Construction.askFactory hop e net).2.creates.drop net.creates.length⟩ := by
  have hasked : (Construction.askFactory hop e net).2.creates.drop net.creates.length =
      [(net.services.length, e)] := by
    rw [Construction.askFactory, net.creates_askService, List.drop_left]
  have hleaves : ∀ tunnel, net.Leaves tunnel opened (Construction.askFactory hop e net).2 :=
    fun _ => net.leaves_askService e
  rw [hasked]
  exact .service (hnet.trans (hleaves none)) (hhop.leave net.services.length (hleaves _))

/-- A build begins in one of the stages. -/
theorem stage_start (h : strategy = .direct ∨ r.target.isSome) (n : Network) :
    Stage r o n strategy (start r strategy n) := by
  cases strategy with
  | direct => exact .askFactory (.refl ..) .direct
  | channelDial =>
    obtain ⟨target, htarget⟩ := Option.isSome_iff_exists.1 (h.resolve_left (by simp))
    have hasked : (n.askSession target).creates = n.creates :=
      (n.creates_record _).trans (List.append_nil _)
    simp only [start, Construction.start, htarget, hasked, List.drop_length]
    exact .session (n.leaves_record _ rfl)
  | localForward =>
    obtain ⟨target, htarget⟩ := Option.isSome_iff_exists.1 (h.resolve_left (by simp))
    let n' : Network :=
      { n with tunnels := n.tunnels ++ [.opening target r.config.host r.config.port] }
    have hbegin : (n.addTunnel (.new target r.config.host r.config.port)).2.beginTunnel
        n.tunnels.length = (.ok (), n') := by
      simp [n', Network.addTunnel, Network.beginTunnel, Tunnel.begin, Tunnel.new,
        Network.setTunnel, Tunnel.opening]
    have hasked : (n'.askSession target).creates = n.creates :=
      (n'.creates_record _).trans (List.append_nil _)
    have hleaves : n.Leaves none [] n' := ⟨Nat.le_refl _, fun _ _ => rfl, fun _ ht => by cases ht⟩
    simp only [start, Construction.start, htarget]
    rw [show (n.addTunnel (.new target r.config.host r.config.port)).1 = n.tunnels.length from rfl,
      hbegin]
    simp only [hasked, List.drop_length]
    refine .tunnelSession (hleaves.trans (n'.leaves_record _ rfl)) ?_
    simp [n', Network.askSession, Network.record, Tunnel.quiet, Tunnel.opening, Tunnel.new,
      Forwarding.start]

/-! ## The answers -/

/-- The answer to a build that waits for the session of a channel. -/
theorem stage_answer_session {target : SshTarget} (hnet : n.Leaves none [] net) :
    Stage r o n .channelDial (answer o
      ⟨.waiting (.session r.config.withEngineDefaults target), net, [], []⟩) := by
  cases hconnector : o.connector with
  | ok traits =>
    simp only [answer, Outcomes.answer, Construction.target?, hconnector, Construction.resume,
      dropped]
    exact .askFactory (Network.leaves_openSession hnet target traits) (.channel hconnector)
  | error e =>
    have hno : ¬o.Reaches .channelDial := by simp [Outcomes.Reaches, hconnector]
    simp only [answer, Outcomes.answer, Construction.target?, hconnector, Construction.resume,
      dropped, Construction.tunnel?]
    exact .ended rfl (.of_unreached hno rfl (by simp) (by simp))

/-- The answer to a build that waits for the session of a tunnel. -/
theorem stage_answer_tunnelSession {target : SshTarget} {t : TunnelId}
    (hnet : n.Leaves none [] net) (hrow : net.tunnels[t]?.map Tunnel.quiet =
      some (.opening target r.config.host r.config.port)) :
    Stage r o n .localForward (answer o
      ⟨.waiting (.tunnelSession r.config.withEngineDefaults target t), net, [], []⟩) := by
  obtain ⟨row, ht, -⟩ := Option.map_eq_some_iff.1 hrow
  cases hconnector : o.connector with
  | ok traits =>
    have hconnected : (net.openSession target traits).2.tunnelConnected t
        (.ok net.sessions.length) =
          (.ok net.sessions.length, (net.openSession target traits).2) := by
      have ht' : (net.openSession target traits).2.tunnels[t]? = some row := ht
      exact Network.tunnelConnected_ok (Network.getElem?_tunnels_accounts.2 ⟨row, ht', rfl⟩) _
    simp only [answer, Outcomes.answer, Construction.target?, hconnector, Construction.resume]
    rw [show (net.openSession target traits).1 = net.sessions.length from rfl, hconnected]
    simp only [dropped, List.drop_length]
    exact .localPort hconnector (Network.leaves_openSession hnet target traits) hrow
  | error e =>
    have hno : ¬o.Reaches .localForward := by simp [Outcomes.Reaches, hconnector]
    simp only [answer, Outcomes.answer, Construction.target?, hconnector, Construction.resume,
      Network.tunnelConnected_of_row ht, Tunnel.connected, dropped, Construction.tunnel?]
    refine .ended rfl (.of_unreached hno rfl ?_ (by simp))
    rw [List.nil_append, Network.creates_closeTunnel]
    exact List.drop_length

/-- The answer to a build that waits for the local port of its tunnel. -/
theorem stage_answer_localPort {target : SshTarget} {t : TunnelId} {s : SessionId}
    {traits : SessionTraits} (hconnector : o.connector = .ok traits)
    (hnet : n.Leaves none [s] net) (hrow : net.tunnels[t]?.map Tunnel.quiet =
      some (.opening target r.config.host r.config.port)) :
    Stage r o n .localForward (answer o
      ⟨.waiting (.localPort r.config.withEngineDefaults t s), net, [s], []⟩) := by
  obtain ⟨row, ht, hquiet⟩ := Option.map_eq_some_iff.1 hrow
  obtain ⟨hlt, -⟩ := List.getElem?_eq_some_iff.1 ht
  cases hlisten : o.listen with
  | ok port =>
    have hstate : row.state = .starting := congrArg Tunnel.state hquiet
    have hlistening : row.listening s (.ok port) = ⟨.ok port, row.listeningOn s port, none⟩ := by
      simp [Tunnel.listening, hstate, Tunnel.listeningOn]
    have hleaves : n.Leaves none [s] (net.setTunnel t (row.listeningOn s port)) :=
      ⟨hnet.opened, hnet.closes, fun _ ht => by cases ht⟩
    have hhop : Hopped r o (net.setTunnel t (row.listeningOn s port)) .localForward (.tunnel t)
        (.direct (r.config.withEngineDefaults.withEndpoint localBindHost port) .localForward)
        [s] := by
      have hstarted : (net.setTunnel t (row.listeningOn s port)).tunnels[t]?.map Tunnel.quiet =
          some ((Tunnel.opening target r.config.host r.config.port).listeningOn s port) := by
        rw [Network.setTunnel, List.getElem?_set_self hlt, Option.map_some, ← hquiet]
        rfl
      exact .tunnel hconnector hlisten hstarted
    simp only [answer, Outcomes.answer, Construction.target?, hlisten, Construction.resume,
      Network.tunnelListening_of_row ht, hlistening, Network.closeAny]
    exact .askFactory hleaves hhop
  | error e =>
    have hno : ¬o.Reaches .localForward := by simp [Outcomes.Reaches, hlisten]
    simp only [answer, Outcomes.answer, Construction.target?, hlisten, Construction.resume,
      Network.tunnelListening_of_row ht, Tunnel.listening, dropped, Construction.tunnel?]
    rw [Network.closeTunnel_setTunnel hlt rfl, Network.creates_closeAny]
    refine .ended rfl (.of_unreached hno rfl List.drop_length fun s' hs' => ?_)
    obtain rfl := List.mem_singleton.1 hs'
    rw [Network.closeAny, Network.sessionCloses_closeSession, if_pos rfl,
      ← hnet.closes s' (.inl hs')]
    rfl

/-- The answer of the factory. -/
theorem stage_answer_service {hop : Hop} {e : Endpoint} {service : ServiceId}
    {opened : List SessionId} (hnet : n.Leaves none opened net)
    (hhop : Hopped r o net strategy hop e opened) :
    Stage r o n strategy (answer o
      ⟨.waiting (.service hop e service), net, opened, [(service, e)]⟩) := by
  cases hfactory : o.factory with
  | ok u =>
    simp only [answer, Outcomes.answer, Construction.target?, hfactory, Construction.resume,
      dropped, List.drop_length, List.append_nil, Option.toList_none]
    exact .ended rfl (.of_served hhop hnet hfactory rfl rfl)
  | error err =>
    simp only [answer, Outcomes.answer, Construction.target?, hfactory, Construction.resume,
      dropped_closeHop, Network.creates_closeHop, List.drop_length, List.append_nil,
      Option.toList_none]
    exact .ended rfl (.of_refused hhop hnet hfactory rfl rfl rfl)

/-- An answer takes a build to a later stage. -/
theorem Stage.answer (h : Stage r o n strategy a) : Stage r o n strategy (a.answer o) := by
  cases h with
  | session hnet => exact stage_answer_session hnet
  | tunnelSession hnet hrow => exact stage_answer_tunnelSession hnet hrow
  | localPort hconnector hnet hrow => exact stage_answer_localPort hconnector hnet hrow
  | service hnet hhop => exact stage_answer_service hnet hhop
  | ended hb hall =>
    have hself : a.answer o = a := by simp [Attempt.answer, hb]
    rw [hself]
    exact .ended hb hall

/-! ## The whole build -/

theorem stage_foldl_disturb (h : Stage r o n strategy a) (others : List Disturbance) :
    Stage r o n strategy (others.foldl Attempt.disturb a) := by
  induction others generalizing a with
  | nil => exact h
  | cons d others ih => exact ih (h.disturb d)

/-- A build goes from stage to stage. -/
theorem stage_run (h : Stage r o n strategy a) (others : List (List Disturbance)) :
    Stage r o n strategy (a.run o others) := by
  induction others generalizing a with
  | nil => exact h
  | cons first others ih => exact ih (stage_foldl_disturb h first).answer

/-- The most answers that the build still waits for. -/
def waits (a : Attempt) : Nat :=
  match a.progress with
  | .waiting (.tunnelSession _ _ _) => 3
  | .waiting (.session _ _) => 2
  | .waiting (.localPort _ _ _) => 2
  | .waiting (.service _ _ _) => 1
  | .ended _ => 0

theorem waits_disturb (a : Attempt) (d : Disturbance) : (a.disturb d).waits = a.waits := by
  obtain ⟨progress, net, opened, asked⟩ := a
  cases progress with
  | ended b => rfl
  | waiting k =>
    simp only [disturb]
    split <;> rfl

theorem waits_answer (o : Outcomes) (a : Attempt) : (a.answer o).waits ≤ a.waits - 1 := by
  obtain ⟨progress, net, opened, asked⟩ := a
  cases progress with
  | ended b => exact Nat.le_refl _
  | waiting k =>
    cases k with
    | session config target =>
      cases hconnector : o.connector <;>
        simp [answer, Outcomes.answer, Construction.target?, hconnector, Construction.resume,
          Construction.askFactory, waits]
    | tunnelSession config target t =>
      cases hconnector : o.connector <;>
        simp only [answer, Outcomes.answer, Construction.target?, hconnector,
          Construction.resume] <;> split <;> simp [waits]
    | localPort config t s =>
      simp only [answer, Outcomes.answer, Construction.target?, Construction.resume]
      split <;> simp [waits, Construction.askFactory]
    | service hop e service =>
      cases hfactory : o.factory <;>
        simp [answer, Outcomes.answer, Construction.target?, hfactory, Construction.resume, waits]

theorem waits_round (o : Outcomes) (a : Attempt) (others : List Disturbance) :
    (a.round o others).waits ≤ a.waits - 1 := by
  have hsame : ∀ (others : List Disturbance) (a : Attempt),
      (others.foldl disturb a).waits = a.waits := by
    intro others
    induction others with
    | nil => exact fun _ => rfl
    | cons d others ih => exact fun a => (ih _).trans (a.waits_disturb d)
  have h := waits_answer o (others.foldl disturb a)
  rwa [hsame] at h

/-- Every answer is one less to wait for. -/
theorem waits_run (o : Outcomes) (a : Attempt) (others : List (List Disturbance)) :
    (a.run o others).waits ≤ a.waits - others.length := by
  induction others generalizing a with
  | nil => exact Nat.le_refl _
  | cons first others ih =>
    have hfirst := a.waits_round o first
    have hrest := ih (a.round o first)
    rw [List.length_cons]
    exact hrest.trans (by omega)

theorem waits_start_le (r : Request) (strategy : Strategy) (n : Network) :
    (start r strategy n).waits ≤ 3 := by
  unfold waits
  split <;> omega

/-- A strategy that goes over a hop is selected only where there is one. -/
theorem direct_or_target {table : StrategyTable} {c : ConnectionConfig} {target : Option SshTarget}
    {selection : Selection} (h : Selection.select table c target = .ok selection) :
    selection.strategy = .direct ∨ target.isSome := by
  have hstrategy : selection.strategy = table.strategyFor c.engine target.isSome := by
    unfold Selection.select Selection.selectWith at h
    cases hvalid : c.validate with
    | error e => simp [hvalid, bind, Except.bind] at h
    | ok u =>
      obtain rfl : _ = selection := by simpa [hvalid, bind, Except.bind, pure, Except.pure] using h
      rfl
  cases target with
  | none => exact .inl hstrategy
  | some target => exact .inr rfl

/-- Whatever the answers to a build are, and whatever others do meanwhile, it comes to its end, and
it is all or nothing then. -/
theorem all_or_nothing (table : StrategyTable) (r : Request) (selection : Selection)
    (hselect : Selection.select table r.config r.target = .ok selection) (o : Outcomes)
    (n : Network) (others : List (List Disturbance)) (hthree : 3 ≤ others.length) :
    AllOrNothing r selection.strategy o n ((start r selection.strategy n).run o others) := by
  have hstage := stage_run (stage_start (o := o) (direct_or_target hselect) n) others
  have hwaits : ((start r selection.strategy n).run o others).waits = 0 := by
    have hrun := waits_run o (start r selection.strategy n) others
    have hstart := waits_start_le r selection.strategy n
    omega
  generalize selection.strategy = strategy at hstage hwaits ⊢
  generalize (start r strategy n).run o others = a at hstage hwaits ⊢
  cases hstage with
  | ended hb h => exact h
  | _ => cases hwaits

/-- The connector and the listener do their part, and the factory fails with an error of its own. -/
def refusedBy (err : BrokerError) : Outcomes :=
  ⟨.ok .lasting, .ok 40000, .error err⟩

/-- Somebody else opens a session, closes it, and is not let near the one of the build. -/
def crowd : List (List Disturbance) :=
  [[.openSession ⟨"bastion", 22, "ops", .agent⟩ .lasting],
    [.closeSession 0, .closeSession 1, .closeTunnel 0, .sever 1], [.forward 0 .connection]]

/-- A build through a tunnel whose service is refused : the factory was asked once, its error is
passed on, and the second session that was opened was the build's, and is closed. -/
theorem all_or_nothing_of_refusal :
    ((start Broker.tunnelled .localForward .empty).run
      (refusedBy (.serviceConstructionFailed "refused")) crowd).opened = [1] ∧
    AllOrNothing Broker.tunnelled .localForward (refusedBy (.serviceConstructionFailed "refused"))
      .empty ((start Broker.tunnelled .localForward .empty).run
        (refusedBy (.serviceConstructionFailed "refused")) crowd) :=
  ⟨by decide +kernel, all_or_nothing .builtin Broker.tunnelled
    ⟨Fingerprint.compute Broker.tunnelled.config Broker.tunnelled.target, .localForward⟩ rfl _ _ _
      (by decide)⟩

end Attempt

end ConnectionBroker
