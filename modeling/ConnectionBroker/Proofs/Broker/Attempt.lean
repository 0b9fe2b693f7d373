import ConnectionBroker.Proofs.Network.Disturbance

/-!
# One build

An `Attempt` is one build from its first step to its return, with the answers that it gets
(`Outcomes`) and with others at work in the network before each of them. Either its hop is there and
the factory has built the service, or every session that it opened is closed when it returns, once,
and the error says which of the two was missing (`Attempt.AllOrNothing`).

A build whose hop is there (`Hopped`) has an endpoint that leads to the database of its request
(`Hopped.suits`), and all that it opened is closed with the hop (`Hopped.closes`).
-/

namespace ConnectionBroker

/-- What a build is answered. -/
structure Outcomes where
  connector : Except BrokerError SessionTraits
  listen : Except ListenFailure UInt16
  factory : Except BrokerError Unit

/-- The endpoint that a factory is asked for a service at, with the number of the service. -/
def Happening.created? : Happening → Option (ServiceId × Endpoint)
  | .create s e => some (s, e)
  | _ => none

/-- What factories were asked for, latest last. -/
def Network.creates (n : Network) : List (ServiceId × Endpoint) :=
  n.log.reverse.filterMap fun row => row.2.created?

namespace Outcomes

/-- The connector and the listener answer as well as the strategy needs. -/
def Reaches (o : Outcomes) : Strategy → Prop
  | .direct => True
  | .channelDial => ∃ traits, o.connector = .ok traits
  | .localForward => (∃ traits, o.connector = .ok traits) ∧ ∃ port, o.listen = .ok port

/-- The answer to a build, with the session that is opened for it. -/
def answer (o : Outcomes) (k : Construction) (n : Network) :
    Option SessionId × Construction.Answer × Network :=
  match k.target? with
  | some target =>
    match o.connector with
    | .ok traits =>
      let (s, n) := n.openSession target traits
      (some s, .session (.ok s), n)
    | .error e => (none, .session (.error e), n)
  | none =>
    match k with
    | .localPort _ _ _ => (none, .localPort o.listen, n)
    | _ => (none, .service o.factory, n)

end Outcomes

/-- One build from its first step to its return. -/
structure Attempt where
  progress : Progress Construction
  net : Network
  /-- The sessions that were opened for it. -/
  opened : List SessionId
  /-- What it has asked the factory for. -/
  asked : List (ServiceId × Endpoint)

namespace Attempt

/-- A build begins. -/
def start (r : Request) (strategy : Strategy) (n : Network) : Attempt :=
  let (k, n') := Construction.start r strategy n
  ⟨.waiting k, n', [], n'.creates.drop n.creates.length⟩

/-- Others do something, but nothing to what the build has to itself. -/
def disturb (a : Attempt) (d : Disturbance) : Attempt :=
  match a.progress with
  | .waiting k =>
    if d.spares k.tunnel? a.opened a.net then { a with net := d.apply a.net } else a
  | .ended _ => a

/-- A build that fails lets go of its tunnel, which closes itself then. -/
def dropped (k : Construction) : Progress Construction → Network → Network
  | .ended (.failed _), n =>
    match k.tunnel? with
    | some t => n.closeTunnel t
    | none => n
  | _, n => n

/-- The build gets its answer. -/
def answer (o : Outcomes) (a : Attempt) : Attempt :=
  match a.progress with
  | .waiting k =>
    let (opened, answer, n) := o.answer k a.net
    let (progress, n') := k.resume answer n
    let n' := dropped k progress n'
    ⟨progress, n', a.opened ++ opened.toList, a.asked ++ n'.creates.drop n.creates.length⟩
  | .ended _ => a

/-- Others do this and that, and the build gets its answer. -/
def round (o : Outcomes) (a : Attempt) (others : List Disturbance) : Attempt :=
  (others.foldl disturb a).answer o

/-- The build with all its answers. -/
def run (o : Outcomes) (a : Attempt) (others : List (List Disturbance)) : Attempt :=
  others.foldl (round o) a

end Attempt

/-- The kind of hop that a strategy goes over. -/
def Strategy.hopKind : Strategy → String
  | direct => "direct"
  | channelDial => "channel"
  | localForward => "tunnel"

/-- The endpoint leads to the database of the request, over the hop. -/
structure Endpoint.Suits (e : Endpoint) (r : Request) (strategy : Strategy) (n : Network)
    (hop : Hop) : Prop where
  kind : hop.kind = strategy.hopKind
  route : e.strategy = strategy
  /-- Nothing but these three can differ. -/
  rest : e.config = { r.config with
    host := e.config.host, port := e.config.port, dsnAppend := e.config.dsnAppend }
  parameters : e.config.dsnAppend = r.config.dsnAppend ∨
    r.config.engineKey = "mysql" ∧ r.config.dsnAppend = ""
  address : strategy ≠ .localForward →
    e.config.host = r.config.host ∧ e.config.port = r.config.port
  /-- The local end of a tunnel that leads to where the request points. -/
  line : strategy = .localForward → e.config.host = "127.0.0.1" ∧
    ∃ t tunnel, hop = .tunnel t ∧ n.tunnels[t]? = some tunnel ∧ tunnel.state = .started ∧
      tunnel.localPort = some e.config.port ∧
      tunnel.remoteHost = r.config.host ∧ tunnel.remotePort = r.config.port ∧
      tunnel.forwarding.host = r.config.host ∧ tunnel.forwarding.port = r.config.port
  dialer : e.dialer.isSome ↔ strategy = .channelDial
  through : ∀ d, e.dialer = some d → hop = .channel d.session

namespace Network

theorem creates_record (n : Network) (h : Happening) :
    (n.record h).creates = n.creates ++ h.created?.toList := by
  simp only [creates, record, List.reverse_cons, List.filterMap_append]
  cases hc : h.created? <;> simp [hc]

theorem creates_askService (n : Network) (e : Endpoint) :
    (n.askService e).2.creates = n.creates ++ [(n.services.length, e)] :=
  (n.addService e.stableAddress).2.creates_record _

theorem creates_closeAny (n : Network) (s : Option SessionId) :
    (n.closeAny s).creates = n.creates := by
  cases s with
  | none => rfl
  | some s => exact (n.creates_record (.closeSession s)).trans (List.append_nil _)

theorem creates_closeTunnel (n : Network) (t : TunnelId) :
    (n.closeTunnel t).creates = n.creates := by
  unfold closeTunnel
  split
  · exact creates_closeAny _ _
  · rfl

theorem creates_closeHop (n : Network) (hop : Hop) : (n.closeHop hop).creates = n.creates := by
  cases hop with
  | direct => rfl
  | channel s => exact n.creates_closeAny (some s)
  | tunnel t => exact n.creates_closeTunnel t

end Network

/-- A tunnel that is being started. -/
def Tunnel.opening (target : SshTarget) (host : String) (port : UInt16) : Tunnel :=
  { Tunnel.new target host port with state := .starting }

/-- A tunnel that was started with a session and has a local port. -/
def Tunnel.listeningOn (t : Tunnel) (s : SessionId) (port : UInt16) : Tunnel :=
  { t with state := .started, localPort := some port, session := some s, stopper := true }

/-- The hop of a strategy is there : what was opened for it, and the endpoint over it. -/
inductive Hopped (r : Request) (o : Outcomes) (n : Network) :
    Strategy → Hop → Endpoint → List SessionId → Prop
  | direct : Hopped r o n .direct .direct (.direct r.config.withEngineDefaults .direct) []
  | channel {s : SessionId} {login : String} {traits : SessionTraits}
      (hconnector : o.connector = .ok traits) : Hopped r o n .channelDial (.channel s)
        (.overChannel r.config.withEngineDefaults ⟨s, login⟩) [s]
  | tunnel {t : TunnelId} {s : SessionId} {target : SshTarget} {port : UInt16}
      {traits : SessionTraits} (hconnector : o.connector = .ok traits)
      (hlisten : o.listen = .ok port)
      (hrow : n.tunnels[t]?.map Tunnel.quiet =
        some ((Tunnel.opening target r.config.host r.config.port).listeningOn s port)) :
      Hopped r o n .localForward (.tunnel t)
        (.direct (r.config.withEngineDefaults.withEndpoint localBindHost port) .localForward) [s]

namespace Hopped

variable {r : Request} {o : Outcomes} {n n' : Network} {strategy : Strategy} {hop : Hop}
  {e : Endpoint} {opened : List SessionId}

theorem reaches (h : Hopped r o n strategy hop e opened) : o.Reaches strategy := by
  cases h with
  | direct => trivial
  | channel hconnector => exact ⟨_, hconnector⟩
  | tunnel hconnector hlisten => exact ⟨⟨_, hconnector⟩, _, hlisten⟩

/-- The defaults of an engine are all that is ever added to a config. -/
theorem withEngineDefaults_eq (c : ConnectionConfig) : ∃ dsnAppend,
    c.withEngineDefaults = { c with dsnAppend } ∧
      (dsnAppend = c.dsnAppend ∨ c.engineKey = "mysql" ∧ c.dsnAppend = "") := by
  unfold ConnectionConfig.withEngineDefaults
  split
  · exact ⟨_, rfl, .inr ‹_›⟩
  · exact ⟨_, rfl, .inl rfl⟩

theorem suits (h : Hopped r o n strategy hop e opened) : e.Suits r strategy n hop := by
  obtain ⟨dsnAppend, hdefaults, hparameters⟩ := withEngineDefaults_eq r.config
  cases h with
  | direct =>
    rw [hdefaults]
    exact ⟨rfl, rfl, rfl, hparameters, fun _ => ⟨rfl, rfl⟩, nofun, by simp [Endpoint.direct], nofun⟩
  | channel hconnector =>
    rw [hdefaults]
    refine ⟨rfl, rfl, rfl, hparameters, fun _ => ⟨rfl, rfl⟩, nofun, ?_, ?_⟩
    · simp [Endpoint.overChannel]
    · rintro d hd
      obtain rfl := Option.some.inj hd
      rfl
  | tunnel hconnector hlisten hrow =>
    rw [hdefaults]
    obtain ⟨row, ht, hquiet⟩ := Option.map_eq_some_iff.1 hrow
    have hline : ∀ {α : Type} (field : Tunnel → α), field row.quiet = field _ := fun field =>
      congrArg field hquiet
    refine ⟨rfl, rfl, rfl, hparameters, fun h => absurd rfl h, fun _ => ⟨rfl, _, row, rfl, ht, ?_⟩,
      by simp [Endpoint.direct], nofun⟩
    exact ⟨hline (·.state), hline (·.localPort), hline (·.remoteHost), hline (·.remotePort),
      hline (·.forwarding.host), hline (·.forwarding.port)⟩

/-- What was opened is the session of the hop. -/
theorem opened_eq (h : Hopped r o n strategy hop e opened) :
    opened = (n.hopSession? hop).toList := by
  cases h with
  | direct | channel => rfl
  | tunnel hconnector hlisten hrow =>
    obtain ⟨row, ht, hquiet⟩ := Option.map_eq_some_iff.1 hrow
    have hsession : row.session = some _ := congrArg Tunnel.session hquiet
    simp only [Network.hopSession?, ht, Option.bind_some, hsession]
    rfl

/-- A hop that is left as it was is there still. -/
theorem leave (h : Hopped r o n strategy hop e opened) (service : ServiceId)
    (hl : n.Leaves (Construction.service hop e service).tunnel? opened n') :
    Hopped r o n' strategy hop e opened := by
  cases h with
  | direct => exact .direct
  | channel hconnector => exact .channel hconnector
  | tunnel hconnector hlisten hrow =>
    exact .tunnel hconnector hlisten ((hl.tunnel _ rfl).trans hrow)

/-- What was opened is closed with the hop. -/
theorem closes {n₀ : Network} (h : Hopped r o n strategy hop e opened)
    (hl : n₀.Leaves none opened n) :
    ∀ s ∈ opened, (n.closeHop hop).sessionCloses s = n₀.sessionCloses s + 1 := by
  intro s hs
  have hclose : (n.closeHop hop).sessionCloses s = n.sessionCloses s + 1 := by
    cases h with
    | direct => cases hs
    | channel hconnector =>
      obtain rfl := List.mem_singleton.1 hs
      rw [Network.closeHop, Network.sessionCloses_closeSession, if_pos rfl]
    | tunnel hconnector hlisten hrow =>
      obtain rfl := List.mem_singleton.1 hs
      obtain ⟨row, ht, hquiet⟩ := Option.map_eq_some_iff.1 hrow
      have hstate : row.state = .started := congrArg Tunnel.state hquiet
      have hsession : row.session = some s := congrArg Tunnel.session hquiet
      have hgiven : row.close.2 = some s := by simp [Tunnel.close, hstate, hsession]
      rw [Network.closeHop, Network.closeTunnel_of_row ht, hgiven, Network.closeAny,
        Network.sessionCloses_closeSession, if_pos rfl]
      rfl
  rw [hclose, hl.closes s (.inl hs)]

end Hopped

/-- The build has come to all that it was to come to, or to nothing. -/
structure Attempt.AllOrNothing (r : Request) (strategy : Strategy) (o : Outcomes) (n : Network)
    (a : Attempt) : Prop where
  /-- The service, for which the factory was asked once, and the hop with all that was opened. -/
  served : o.Reaches strategy → o.factory = .ok () → ∃ service hop e,
    a.progress = .ended (.resource ⟨service, hop⟩) ∧ a.asked = [(service, e)] ∧
      a.opened = (a.net.hopSession? hop).toList ∧ e.Suits r strategy a.net hop
  /-- The factory was asked once and has failed. -/
  refused : o.Reaches strategy → ∀ err, o.factory = .error err → ∃ reason,
    a.progress = .ended (.failed (.serviceConstructionFailed reason)) ∧ a.asked.length = 1 ∧
      ∀ given, err = .serviceConstructionFailed given → reason = given
  /-- The factory was not asked, for the hop could not be had. -/
  unreached : ¬o.Reaches strategy → ∃ reason,
    a.progress = .ended (.failed (.tunnelStartFailed reason)) ∧ a.asked = []
  /-- What was opened for a build that fails was closed, once. -/
  closed : ∀ err, a.progress = .ended (.failed err) →
    ∀ s ∈ a.opened, a.net.sessionCloses s = n.sessionCloses s + 1
  /-- What was opened for a build that succeeds was not closed. -/
  kept : ∀ resource, a.progress = .ended (.resource resource) →
    ∀ s ∈ a.opened, a.net.sessionCloses s = n.sessionCloses s

end ConnectionBroker
