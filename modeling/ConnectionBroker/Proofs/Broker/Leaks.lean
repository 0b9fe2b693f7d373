import ConnectionBroker.Proofs.Broker.Steps
import ConnectionBroker.Proofs.Cache.Aging

/-!
# Nothing leaks

When every call has ended no build is in progress, and the hops that are not closed are the ones of
the open entries in the map (`Cache.mem_unreleased_iff`). The books then say of every session that
it is the one of such a hop, or it was closed once (`Cache.sessionCloses_at_rest`). A service that
the factory has returned is the one of an entry (`Broker.exists_service_of_mem_returned`), so it is
the one of an open entry, or it was told to close once (`Cache.serviceCloses_at_rest`).
-/

namespace ConnectionBroker

namespace Network

/-- How often a session was closed. -/
def sessionCloses (n : Network) (s : SessionId) : Nat :=
  n.log.countP fun row => row.2 == .closeSession s

/-- How often a service was told to close. -/
def serviceCloses (n : Network) (s : ServiceId) : Nat :=
  n.log.countP fun row => row.2 == .closeService s

/-- The session of a hop, inside its tunnel perhaps. -/
def hopSession? (n : Network) : Hop → Option SessionId
  | .direct => none
  | .channel s => some s
  | .tunnel t => n.tunnels[t]?.bind (·.session)

theorem sessionCloses_eq_count (n : Network) (s : SessionId) :
    n.sessionCloses s = n.accounts.closedSessions.count s := by
  have hrow : ∀ h : Happening, (h == .closeSession s) = (h.closedSession? == some s) := fun h => by
    cases h <;> simp [Happening.closedSession?]
  simp only [sessionCloses, accounts, List.count_filterMap, hrow]

theorem serviceCloses_eq_count (n : Network) (s : ServiceId) :
    n.serviceCloses s = n.accounts.closedServices.count s := by
  have hrow : ∀ h : Happening, (h == .closeService s) = (h.closedService? == some s) := fun h => by
    cases h <;> simp [Happening.closedService?]
  simp only [serviceCloses, accounts, List.count_filterMap, hrow]

theorem session?_hop (n : Network) (hop : Hop) :
    (Holding.hop hop).session? n.accounts.tunnels = n.hopSession? hop := by
  cases hop with
  | direct | channel => rfl
  | tunnel t =>
    rw [Holding.session?, hopSession?, accounts, List.getElem?_map]
    cases n.tunnels[t]? <;> rfl

end Network

namespace Cache

variable {c c' : Cache} {id : CallId} {e : EntryId} {service : ServiceId} {key : Fingerprint}
  {slot : SlotId} {left : Nat}

/-- The sessions of the hops of the open entries. -/
def hopSessions (c : Cache) : List SessionId :=
  c.openEntries.filterMap fun e => c.resources[e]?.bind fun r => c.net.hopSession? r.hop

/-- The services of the open entries. -/
def openServices (c : Cache) : List ServiceId :=
  c.openEntries.filterMap c.service?

/-! ## Entries at rest -/

/-- Nothing is done to an open entry. -/
theorem deedsOf_of_isOpen (ha : Account c c.hands) (hopen : c.isOpen e = true) :
    c.deedsOf e = [] := by
  obtain ⟨entry, he, hentry⟩ := isOpen_eq_true_iff.1 hopen
  exact ha.deedsOf_eq_nil (isClosed_eq_false he hentry)

/-- When every call has ended, the hops that are not closed are the ones of the open entries. -/
theorem mem_unreleased_iff (hc : c.Reached) (hrest : c.AtRest)
    (hquiet : ∀ id, c.result? id ≠ some .aborted) : e ∈ c.unreleased ↔ e ∈ c.openEntries := by
  constructor
  · intro he
    rcases List.mem_append.1 (mem_heldEntries hc hquiet he) with hrow | hcall
    · obtain ⟨⟨key, slot⟩, hcur, hready⟩ := List.mem_filterMap.1 hrow
      exact List.mem_filter.2 ⟨hrow, hc.custody.cached_open key slot e hcur hready⟩
    · obtain ⟨call, hmem, he⟩ := List.mem_flatMap.1 hcall
      obtain ⟨r, hr⟩ := hrest call hmem
      rw [hr] at he
      cases he
  · intro he
    obtain ⟨-, hopen⟩ := List.mem_filter.1 he
    obtain ⟨entry, hentry, -⟩ := isOpen_eq_true_iff.1 hopen
    obtain ⟨hlt, -⟩ := List.getElem?_eq_some_iff.1 hentry
    refine Multiset.mem_filter.2 ⟨by simpa [resources] using hlt, fun hd => ?_⟩
    obtain ⟨id, hd⟩ := (mem_disposals_iff_deedsOf rfl rfl).1 hd
    rw [deedsOf_of_isOpen hc.account hopen] at hd
    cases hd

/-- When every call has ended, an entry whose hop is closed is released in full. -/
theorem released_of_not_mem (hc : c.Reached) (hrest : c.AtRest)
    (hquiet : ∀ id, c.result? id ≠ some .aborted) (hlt : e < c.resources.length)
    (he : e ∉ c.unreleased) : ∃ id, c.deedsOf e = released id e := by
  have hhop : .closeHop e ∈ c.disposals := by simpa [unreleased, hlt] using he
  obtain ⟨i, hd⟩ := (mem_disposals_iff_deedsOf rfl rfl).1 hhop
  have hclosed : c.isClosed e = true := (hc.account.closed_iff e).2 (List.ne_nil_of_mem hd)
  refine (hc.account.released_or_abandoned hrest hclosed).resolve_right ?_
  rintro ⟨id, hid⟩
  exact hc.sound.not_abandoned hquiet hid

/-! ## Sessions -/

theorem mem_hopSessions_iff (hopen : ∀ e, e ∈ c.unreleased ↔ e ∈ c.openEntries) {s : SessionId} :
    s ∈ c.hopSessions ↔ s ∈ c.held.filterMap (·.session? c.net.accounts.tunnels) := by
  have hheld : ∀ e, (c.holding? e).bind (·.session? c.net.accounts.tunnels) =
      c.resources[e]?.bind fun r => c.net.hopSession? r.hop := fun e => by
    rw [holding?]
    cases c.resources[e]? with
    | none => rfl
    | some r => exact c.net.session?_hop r.hop
  simp [hopSessions, held, Multiset.filterMap_filterMap, hheld, hopen]

/-- Where the books balance and the hops that are not closed are the ones of the open entries,
every session that was opened is the one of such a hop, or it was closed once. -/
theorem sessionCloses_at_rest (hb : c.Books 0)
    (hopen : ∀ e, e ∈ c.unreleased ↔ e ∈ c.openEntries) {s : SessionId}
    (hs : s < c.net.sessions.length) :
    c.net.sessionCloses s = if s ∈ c.hopSessions then 0 else 1 := by
  have honce : (c.held.filterMap (·.session? c.net.accounts.tunnels)).count s +
      c.net.sessionCloses s = 1 := by
    have hconserved := hb.ledger.conserved
    rw [Multiset.filterMap_zero, zero_add] at hconserved
    rw [Network.sessionCloses_eq_count, ← Multiset.coe_count, ← Multiset.count_add, hconserved]
    exact Multiset.count_eq_one_of_mem (Multiset.nodup_range _) (Multiset.mem_range.2 hs)
  split
  · rename_i hmem
    have hpos := Multiset.count_pos.2 ((mem_hopSessions_iff hopen).1 hmem)
    omega
  · rename_i hmem
    rw [Multiset.count_eq_zero_of_notMem (hmem ∘ (mem_hopSessions_iff hopen).2)] at honce
    omega

/-! ## Services -/

/-- No two entries have the same service. -/
theorem service?_inj (hnodup : c.services.Nodup) {i : EntryId} (he : c.service? e = some service)
    (hi : c.service? i = some service) : i = e := by
  have hlist : (c.resources.map (·.service)).Nodup := hnodup
  have hget : ∀ i, c.service? i = (c.resources.map (·.service))[i]? := fun i => by
    rw [List.getElem?_map, service?]
  rw [hget] at he hi
  obtain ⟨hlt, -⟩ := List.getElem?_eq_some_iff.1 hi
  exact (List.getElem?_inj hlt hlist).1 (hi.trans he.symm)

/-- A service is told to close as often as its entry's account says. -/
theorem count_told (hnodup : c.services.Nodup) (he : c.service? e = some service) :
    c.told.count service = ((c.deedsOf e).map (·.2)).count (.tellService e) := by
  have hservice : ∀ i, (c.service? i == some service) = (i == e) := fun i => by
    rw [Bool.eq_iff_iff, beq_iff_eq, beq_iff_eq]
    exact ⟨service?_inj hnodup he, fun hi => hi ▸ he⟩
  have htells : ∀ d : Deed, (d.tells? == some e) = (d == .tellService e) := fun d => by
    cases d <;> simp [Deed.tells?]
  have hdeed : ∀ d : Deed, (d == .tellService e && d.disposes) =
      (d == .tellService e && d.about == some e) := fun d => by
    cases d <;> simp [Deed.disposes, Deed.about]
  calc c.told.count service
      = (c.disposals.filterMap Deed.tells?).count e := by
        simp only [told, Multiset.coe_count, List.count_filterMap, hservice, ← List.count_eq_countP]
    _ = c.journal.countP fun row => row.2 == .tellService e && row.2.disposes := by
        simp only [disposals, List.count_filterMap, htells, List.countP_filter, List.countP_map,
          Function.comp_def]
    _ = ((c.deedsOf e).map (·.2)).count (.tellService e) := by
        simp only [hdeed, deedsOf, List.count_eq_countP, List.countP_map, List.countP_filter,
          Function.comp_def]

/-- When every call has ended, the service of an entry was told to close once, or never if the entry
is open. -/
theorem serviceCloses_at_rest (hc : c.Reached) (hb : c.Books 0) (hrest : c.AtRest)
    (hquiet : ∀ id, c.result? id ≠ some .aborted) (he : c.service? e = some service) :
    c.net.serviceCloses service = if service ∈ c.openServices then 0 else 1 := by
  have hnodup : c.services.Nodup := by
    have happ := hb.apart
    rwa [Multiset.filterMap_zero, zero_add] at happ
  have htold : c.net.serviceCloses service =
      ((c.deedsOf e).map (·.2)).count (.tellService e) := by
    rw [Network.serviceCloses_eq_count, ← Multiset.coe_count, hb.told_eq, count_told hnodup he]
  have hmem : service ∈ c.openServices ↔ e ∈ c.openEntries := by
    refine List.mem_filterMap.trans ⟨?_, fun hopen => ⟨e, hopen, he⟩⟩
    rintro ⟨i, hopen, hi⟩
    rwa [← service?_inj hnodup he hi]
  rw [htold]
  split
  · rename_i hservice
    rw [deedsOf_of_isOpen hc.account (List.mem_filter.1 (hmem.1 hservice)).2]
    rfl
  · rename_i hservice
    have hlt : e < c.resources.length := by
      obtain ⟨r, hr, -⟩ := Option.map_eq_some_iff.1 he
      exact (List.getElem?_eq_some_iff.1 hr).1
    obtain ⟨id, hdeeds⟩ := released_of_not_mem hc hrest hquiet hlt
      (hservice ∘ hmem.2 ∘ (mem_unreleased_iff hc hrest hquiet).1)
    simp [hdeeds, released]

/-! ## What the factory has returned -/

/-- An entry keeps its service. -/
theorem Ages.service? (h : c.Ages c') (he : c.service? e = some service) :
    c'.service? e = some service := by
  obtain ⟨entry, hentry, rfl⟩ : ∃ entry, c.entries[e]? = some entry ∧
      entry.resource.service = service := by simpa [Cache.service?, resources] using he
  obtain ⟨entry', hentry', hage⟩ := h.old e entry hentry
  simp [Cache.service?, resources, hentry', hage.resource]

theorem Continues.service? (h : c.Continues c') (hc : c.Sound) (he : c.service? e = some service) :
    c'.service? e = some service :=
  (h.strides hc).ages.service? he

/-- A build that ends with a resource makes an entry of it. -/
theorem service?_built (hc : c.Sound)
    (hact : c.activity? id = some (.getting key left (.building slot))) (r : Resource) :
    (c.built id (.resource r)).service? c.entries.length = some r.service := by
  have hslot := hc.lt_of_building hact
  unfold built
  rw [hact]
  set c₁ := ({ c with entries := c.entries ++ [Entry.fresh key r c.net.now c.ttl] } :
    Cache).conclude slot (.ready c.entries.length)
  have hnew : c₁.service? c.entries.length = some r.service := by
    simp [c₁, Cache.service?, resources, conclude, updateSlot, Entry.fresh]
  have hdone : c₁.outcome? slot = some (.ready c.entries.length) := outcome?_conclude_self hslot
  have hp : Performs id (.get key) (c₁, { (Activity.getting key left (.building slot)).hand with
        building := none
        drained := c₁.outside key slot ++ [] })
      (c₁.observe id key slot true left (.ready c.entries.length)) := performs_concluded hdone
  exact (Ages.moves hp.moves).service? hnew

end Cache

namespace Broker

variable {b : Broker} {ev : Event} {events : List Event} {service : ServiceId}

/-- The services that the factory returns in a run. -/
def returned (b : Broker) : List Event → List ServiceId
  | [] => []
  | ev :: events => (b.returned? ev).toList ++ (b.step ev).returned events

/-- A service that the factory returns goes to a new entry in the same step. -/
theorem exists_service_of_returned? (hu : b.supply.Upkept) (h : b.returned? ev = some service) :
    ∃ e, (b.step ev).cache.service? e = some service := by
  unfold returned? at h
  split at h
  · rename_i id u
    split at h
    · rename_i hop endpoint s hbuild
      obtain rfl := Option.some.inj h
      obtain ⟨⟨wanted, begun, build⟩, ho, rfl⟩ := Option.bind_eq_some_iff.1 hbuild
      have hbuilding := (hu.attached (id, _) (Supplied.mem_of_order ho)).2 rfl
      obtain ⟨key, left, slot, hact⟩ := Cache.activity_of_building hbuilding
      set c := b.supply.cache.setWorld b.supply.cache.net with hdef
      have hc : c.Reached := hu.reached.setWorld _
      have hnew : (c.built id (.resource ⟨s, hop⟩)).service? c.entries.length = some s :=
        Cache.service?_built hc.sound hact ⟨s, hop⟩
      refine ⟨c.entries.length, ?_⟩
      show (b.supply.answer supplier id (.service (.ok u))).cache.service? _ = _
      unfold Supplied.answer
      rw [ho]
      have hreached : (c.step (.built id (.resource ⟨s, hop⟩))).Reached := hc.step (by simp)
      exact (continues_supply _ id).service? hreached.sound hnew
    · cases h
  · cases h

/-- A service that the factory has returned is the one of an entry. -/
theorem exists_service_of_mem_returned (hu : b.supply.Upkept)
    (hquiet : ∀ id, (b.run events).cache.result? id ≠ some .aborted)
    (h : service ∈ b.returned events) : ∃ e, (b.run events).cache.service? e = some service := by
  induction events generalizing b with
  | nil => cases h
  | cons ev events ih =>
    have hreached : (b.step ev).cache.Reached := hu.reached.continues (does_step b ev).continues
    rcases List.mem_append.1 h with hnow | hlater
    · obtain ⟨e, he⟩ := exists_service_of_returned? hu (Option.mem_toList.1 hnow)
      exact ⟨e, (continues_run (b.step ev) events).service? hreached.sound he⟩
    · exact ih ((does_step b ev).upkept hu (quiet_of_run hreached hquiet)) hquiet hlater

/-- What was opened or built and is not in use was closed, once. -/
structure Tidy (b : Broker) (returned : List ServiceId) : Prop where
  /-- A session that was opened is the one of the hop of an open entry in the cache and was never
  closed, or it was closed once. -/
  sessions : ∀ s < b.cache.net.sessions.length,
    b.cache.net.sessionCloses s = if s ∈ b.cache.hopSessions then 0 else 1
  /-- A service that was returned is the one of an open entry in the cache and was never told to
  close, or it was told once. -/
  services : ∀ service ∈ returned,
    b.cache.net.serviceCloses service = if service ∈ b.cache.openServices then 0 else 1

/-- In every run of a broker in which nobody is cancelled, when every call has ended no session and
no service has leaked, and none was closed twice. -/
theorem no_leak (settings : BrokerSettings) (table : StrategyTable) (events : List Event)
    (hrest : ((new settings table).run events).cache.AtRest)
    (hquiet : ∀ id, ((new settings table).run events).cache.result? id ≠ some .aborted) :
    ((new settings table).run events).Tidy ((new settings table).returned events) := by
  have hnew : (new settings table).supply.Upkept := .new _
  have hu := upkept_run hnew hquiet
  have hb : ((new settings table).run events).cache.Books 0 := hu.books_at_rest hrest
  refine ⟨fun s hs => ?_, fun service hservice => ?_⟩
  · exact Cache.sessionCloses_at_rest hb
      (fun e => Cache.mem_unreleased_iff hu.reached hrest hquiet) hs
  · obtain ⟨e, he⟩ := exists_service_of_mem_returned hnew hquiet hservice
    exact Cache.serviceCloses_at_rest hu.reached hb hrest hquiet he

/-- A database that is reached through a tunnel. -/
def tunnelled : Request where
  config := .new "oracle" "db" 1521
  target := some ⟨"bastion", 22, "ops", .agent⟩

/-- A service is refused over the first tunnel, built over the second one and closed, and built
again over the third one. -/
def threeTunnels : List Event :=
  [.getService tunnelled, .connected 0 (.ok .lasting), .listening 0 (.ok 40000),
    .created 0 (.error (.serviceConstructionFailed "refused")),
    .getService tunnelled, .connected 1 (.ok .lasting), .listening 1 (.ok 40001),
    .created 1 (.ok ()), .closeService tunnelled, .serviceClosed 2,
    .getService tunnelled, .connected 3 (.ok .lasting), .listening 3 (.ok 40002),
    .created 3 (.ok ())]

/-- Of three sessions the last one is in use and was never closed, and the other two were closed
once, with the refusal and with the close. -/
theorem no_leak_over_tunnels :
    ((new .default .builtin).run threeTunnels).cache.hopSessions = [2] ∧
    ((new .default .builtin).run threeTunnels).cache.net.sessions.length = 3 ∧
    (new .default .builtin).returned threeTunnels = [1, 2] ∧
    ((new .default .builtin).run threeTunnels).Tidy
      ((new .default .builtin).returned threeTunnels) := by
  refine ⟨by decide +kernel, by decide +kernel, by decide +kernel, ?_⟩
  exact no_leak .default .builtin threeTunnels (by decide +kernel)
    (Cache.result?_ne_iff.2 (by decide +kernel))

end Broker

end ConnectionBroker
