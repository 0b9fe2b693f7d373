import ConnectionBroker.Broker.Step
import ConnectionBroker.Proofs.Broker.Upkeep

/-!
# The steps of a broker keep its books

What a step of a broker can do to its cache and to its builds is said once (`Broker.Does`). All of
it is a run of the cache (`Broker.Does.continues`), and it keeps the books as long as nobody is
cancelled (`Broker.Does.upkept`) : a tunnel that closes itself is held by nobody then.
-/

namespace ConnectionBroker

namespace Broker

variable {b : Broker} {ev : Event} {s s' : Supplied (Request × Strategy) Construction}

/-! ## What a step does -/

section Requests

variable {r : Request} {e : BrokerError} {selection : Selection}

theorem step_getService_error (h : b.select r = .error e) : b.step (.getService r) = b := by
  simp [step, getService, h, accepted, bind, Except.bind]

theorem step_getService (h : b.select r = .ok selection) :
    (b.step (.getService r)).supply =
      (b.supply.get supplier selection.fingerprint (r, selection.strategy)).2 := by
  simp [step, getService, h, accepted, bind, Except.bind, pure, Except.pure]

theorem step_closeService_error (h : b.select r = .error e) : b.step (.closeService r) = b := by
  simp [step, closeService, h, accepted, bind, Except.bind]

theorem step_closeService (h : b.select r = .ok selection) :
    b.step (.closeService r) =
      b.setCache (b.cache.step (.call (.close selection.fingerprint))) := by
  simp [step, closeService, h, accepted, bind, Except.bind, pure, Except.pure, setCache, Cache.step]

end Requests

/-- What a step of a broker can do to its cache and to the builds. -/
inductive Does (s : Supplied (Request × Strategy) Construction) :
    Supplied (Request × Strategy) Construction → Prop where
  | nothing : Does s s
  /-- Something happens to the cache while the builds go on. -/
  | cache (ev : Cache.Event) (hev : ev.SparesBuilds) : Does s { s with cache := s.cache.step ev }
  /-- A caller asks for a service. -/
  | get (key : Fingerprint) (wanted : Request × Strategy) : Does s (s.get supplier key wanted).2
  /-- A call goes on, perhaps to build. -/
  | resume (id : CallId) (ev : Cache.Event) (hev : ev.SparesBuilds) (hstop : ¬ev.StopsSweeper) :
    Does s (s.apply supplier id ev)
  /-- A build gets an answer that is no session. -/
  | answer (id : CallId) (a : Construction.Answer) (ha : ∀ n, a ≠ .session (.ok n)) :
    Does s (s.answer supplier id a)
  /-- The session is opened that a build waits for. -/
  | opened (id : CallId) (target : SshTarget) (traits : SessionTraits)
    (htarget : (s.build? id).bind Construction.target? = some target) :
    Does s (({ s with cache := s.cache.setWorld (s.cache.net.openSession target traits).2 } :
      Supplied (Request × Strategy) Construction).answer supplier id
        (.session (.ok s.cache.net.sessions.length)))
  /-- A tunnel that the broker does not hold closes itself. -/
  | dropped (t : TunnelId) (hfree : t ∉ s.heldTunnels Construction.tunnel? []) :
    Does s { s with cache := s.cache.setWorld (s.cache.net.closeTunnel t) }

/-- A step does nothing else. -/
theorem does_step (b : Broker) (ev : Event) : Does b.supply (b.step ev).supply := by
  cases ev with
  | getService r =>
    cases hs : b.select r with
    | error e =>
      rw [step_getService_error hs]
      exact .nothing
    | ok selection =>
      rw [step_getService hs]
      exact .get selection.fingerprint (r, selection.strategy)
  | closeService r =>
    cases hs : b.select r with
    | error e =>
      rw [step_closeService_error hs]
      exact .nothing
    | ok selection =>
      rw [step_closeService hs]
      exact .cache (.call (.close selection.fingerprint)) trivial
  | operate op =>
    cases op with
    | get key => exact .nothing
    | touch key => exact .cache (.call (.touch key)) trivial
    | sweep => exact .cache (.call .sweep) trivial
    | close key => exact .cache (.call (.close key)) trivial
    | closeAll => exact .cache (.call .closeAll) trivial
    | shutdown => exact .cache (.call .shutdown) trivial
  | startSweeper => exact .cache (.spawnSweeper _) trivial
  | tick => exact .cache .tick trivial
  | connected id r =>
    rw [step, connected]
    split
    · exact .nothing
    · rename_i target htarget
      cases r with
      | error e => exact .answer id _ (by simp)
      | ok traits => exact .opened id target traits htarget
  | listening id r => exact .answer id _ (by simp)
  | created id r => exact .answer id _ (by simp)
  | serviceClosed id => exact .resume id (.serviceClosed id) trivial fun h => h
  | wake id => exact .resume id (.wake id) trivial fun h => h
  | drop t =>
    rw [step, drop]
    split
    · exact .nothing
    · rename_i hfree
      exact .dropped t (by simpa [heldTunnels] using hfree)
  | clock t => exact .cache (.clock t) trivial
  | sever s => exact .cache (.sever s) trivial
  | forward t e => exact .cache (.forward t e) trivial
  | reorder rows => exact .cache (.reorder rows) trivial

/-! ## Books -/

/-- The tunnel that a build holds is the one that it has. -/
theorem tunnel?_of_stake {k : Construction} {x : Holding} {t : TunnelId}
    (hx : k.stake.holding = some x) (ht : x.tunnel? = some t) : k.tunnel? = some t := by
  cases k with
  | session => cases hx
  | tunnelSession | localPort =>
    obtain rfl := Option.some.inj hx
    exact ht
  | service hop =>
    obtain rfl := Option.some.inj hx
    cases hop with
    | tunnel => exact ht
    | direct | channel => cases ht

/-- A tunnel that is in the books is one that the broker holds. -/
theorem mem_heldTunnels (hu : s.Upkept) (hquiet : ∀ id, s.cache.result? id ≠ some .aborted)
    {x : Holding} {t : TunnelId}
    (hx : x ∈ (Supplied.stakes s.orders).filterMap (·.holding) + s.cache.held)
    (ht : x.tunnel? = some t) : t ∈ s.heldTunnels Construction.tunnel? [] := by
  rcases Multiset.mem_add.1 hx with hx | hx
  · obtain ⟨k, hk, hkx⟩ := (Multiset.mem_filterMap _ _).1 hx
    obtain ⟨row, hrow, rfl⟩ := List.mem_map.1 (Multiset.mem_coe.1 hk)
    refine List.mem_append_right _ (List.mem_filterMap.2 ⟨row, hrow, ?_⟩)
    unfold Supplied.stakeOf at hkx
    split at hkx
    · rename_i build hbuild
      rw [hbuild]
      exact tunnel?_of_stake hkx ht
    · cases hkx
  · obtain ⟨e, he, hex⟩ := (Multiset.mem_filterMap _ _).1 hx
    have hheld := Cache.mem_heldEntries hu.reached hquiet he
    refine List.mem_append_left _ (List.mem_filterMap.2 ⟨e, List.mem_append_left _ hheld, ?_⟩)
    obtain ⟨r, hr, rfl⟩ := Option.map_eq_some_iff.1 hex
    obtain ⟨entry, hentry, rfl⟩ :
        ∃ entry, s.cache.entries[e]? = some entry ∧ entry.resource = r := by
      simpa [Cache.resources] using hr
    have hhop : (s.cache.entries[e]?).map (fun entry => entry.resource.hop) =
        some entry.resource.hop := by rw [hentry, Option.map_some]
    show s.cache.tunnelOf? e = some t
    rw [Cache.tunnelOf?, hhop]
    generalize entry.resource.hop = hop at ht
    cases hop with
    | tunnel t' => exact ht
    | direct | channel => cases ht

/-- A tunnel that nobody holds closes itself, and has nothing to give up. -/
theorem upkept_dropped (hu : s.Upkept) (hquiet : ∀ id, s.cache.result? id ≠ some .aborted)
    {t : TunnelId} (hfree : t ∉ s.heldTunnels Construction.tunnel? []) :
    ({ s with cache := s.cache.setWorld (s.cache.net.closeTunnel t) } :
      Supplied (Request × Strategy) Construction).Upkept := by
  have hledger := hu.books.ledger.drop (t := t) fun x hx hxt =>
    hfree (mem_heldTunnels hu hquiet hx hxt)
  obtain ⟨tunnels, closed, haccounts⟩ := s.cache.net.closeTunnel_accounts t
  have hbooks : Cache.Books { s.cache with net := s.cache.net.closeTunnel t }
      (Supplied.stakes s.orders) := by
    rw [haccounts] at hledger
    rw [Cache.Books, haccounts]
    exact ⟨hledger, hu.books.apart, hu.books.known, hu.books.told_eq⟩
  exact ⟨hu.reached.setWorld _, hbooks.congr rfl rfl rfl, hu.ids, hu.attached⟩

/-- What a broker does keeps its books, as long as nobody is cancelled. -/
theorem Does.upkept (h : Does s s') (hu : s.Upkept)
    (hquiet : ∀ id, s'.cache.result? id ≠ some .aborted) : s'.Upkept := by
  have advance : ∀ ev : Cache.Event, ev.SparesBuilds →
      (ev.StopsSweeper → ∀ id, (s.cache.step ev).result? id ≠ some .aborted) →
      ({ s with cache := s.cache.step ev } : Supplied _ _).Upkept := by
    intro ev hev hstop
    refine hu.advance (hu.reached.step ?_)
      (Cache.advances_step hu.reached.sound hu.reached.account hstop hev)
    rintro id rfl
    exact hev
  cases h with
  | nothing => exact hu
  | cache ev hev => exact advance ev hev fun _ => hquiet
  | get key wanted => exact hu.get key wanted
  | resume id ev hev hstop => exact (advance ev hev fun h => absurd h hstop).supply id
  | answer id a ha => exact hu.answer_other id ha
  | opened id target traits htarget =>
    obtain ⟨build, hbuild, hk⟩ := Option.bind_eq_some_iff.1 htarget
    obtain ⟨⟨wanted, begun, _⟩, ho, rfl⟩ := Option.bind_eq_some_iff.1 hbuild
    exact hu.answer ho (hu.reached.setWorld _) ⟨_, rfl⟩ _
      (Construction.trades_connected hk (s.cache.net.accounts_openSession target traits))
  | dropped t hfree => exact upkept_dropped hu hquiet hfree

/-! ## Runs -/

theorem continues_supply (s : Supplied (Request × Strategy) Construction) (id : CallId) :
    s.cache.Continues (s.supply supplier id).cache := by
  unfold Supplied.supply
  split
  · exact (Cache.Continues.refl s.cache).setWorld _
  · exact .refl s.cache

theorem continues_answer (s : Supplied (Request × Strategy) Construction) (id : CallId)
    (a : Construction.Answer) : s.cache.Continues (s.answer supplier id a).cache := by
  unfold Supplied.answer
  split
  · rename_i wanted begun build ho
    generalize supplier.resume build a s.cache.net = r
    obtain ⟨p, net⟩ := r
    have hworld : s.cache.Continues (s.cache.setWorld net) := (Cache.Continues.refl _).setWorld net
    cases p with
    | waiting build' => exact hworld
    | ended b =>
      have hbuilt : s.cache.Continues ((s.cache.setWorld net).step (.built id b)) :=
        hworld.step (by simp)
      exact hbuilt.trans (continues_supply _ id)
  · exact .refl s.cache

/-- What a broker does is a run of its cache. -/
theorem Does.continues (h : Does s s') : s.cache.Continues s'.cache := by
  have happens : ∀ ev : Cache.Event, ev.SparesBuilds → s.cache.Continues (s.cache.step ev) := by
    refine fun ev hev => (Cache.Continues.refl s.cache).step ?_
    rintro id rfl
    exact hev
  cases h with
  | nothing => exact .refl s.cache
  | cache ev hev => exact happens ev hev
  | get key wanted =>
    have hcall : s.cache.Continues (s.cache.step (.call (.get key))) :=
      happens (.call (.get key)) trivial
    exact hcall.trans (continues_supply _ _)
  | resume id ev hev hstop => exact (happens ev hev).trans (continues_supply _ id)
  | answer id a ha => exact continues_answer s id a
  | opened id target traits htarget =>
    exact ((Cache.Continues.refl s.cache).setWorld _).trans (continues_answer _ id _)
  | dropped t hfree => exact (Cache.Continues.refl s.cache).setWorld _

/-- Every run of a broker is a run of its cache. -/
theorem continues_run (b : Broker) (events : List Event) :
    b.cache.Continues (b.run events).cache := by
  induction events generalizing b with
  | nil => exact .refl b.cache
  | cons ev events ih => exact (does_step b ev).continues.trans (ih (b.step ev))

/-- Who is cancelled stays so : where nobody is at the end of a run, nobody was on the way. -/
theorem quiet_of_run {events : List Event} (hc : b.cache.Reached)
    (hquiet : ∀ id, (b.run events).cache.result? id ≠ some .aborted) (id : CallId) :
    b.cache.result? id ≠ some .aborted := fun h =>
  hquiet id (((continues_run b events).strides hc.sound).result? h)

/-- A run in which nobody is cancelled keeps the books. -/
theorem upkept_run {events : List Event} (hu : b.supply.Upkept)
    (hquiet : ∀ id, (b.run events).cache.result? id ≠ some .aborted) :
    (b.run events).supply.Upkept := by
  induction events generalizing b with
  | nil => exact hu
  | cons ev events ih =>
    have hreached : (b.step ev).cache.Reached := hu.reached.continues (does_step b ev).continues
    exact ih ((does_step b ev).upkept hu (quiet_of_run hreached hquiet)) hquiet

end Broker

end ConnectionBroker
