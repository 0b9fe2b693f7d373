import ConnectionBroker.Proofs.Broker.Steps
import ConnectionBroker.Proofs.Selection.Identity

/-!
# A key says how its service is reached

What is selected for a request is read off its config, but no more of it than the key says : the
engine, the host, the port, the database path and the data source name stand in the key as they
are, and an SSH hop shows in it as a part of its own (`routed_of_fields_eq`). No digest is opened
for that, so two requests with one key are refused for one reason or get one strategy even where the
digests of their secrets collide (`selectWith_eq_of_key`).

A broker keeps with each call what it wants built, as it was selected (`Routed`). Of several callers
that race for one key it therefore does not matter who gets to build : each of them would reach the
service in the same way (`routes_agree`).
-/

namespace ConnectionBroker

namespace Selection

open Fingerprint

variable {digest : String → String} {table : StrategyTable} {c₁ c₂ : ConnectionConfig}
  {s₁ s₂ : Option SshTarget}

/-- All that is looked at to accept a config and to find its strategy. -/
theorem routed_of_fields_eq (h : fields digest c₁ s₁ = fields digest c₂ s₂) :
    c₁.invalidity = c₂.invalidity ∧ c₁.engineKey = c₂.engineKey ∧ s₁.isSome = s₂.isSome := by
  simp only [fields, List.cons.injEq, Prod.mk.injEq, true_and, and_true, Option.some.injEq] at h
  obtain ⟨hengine, hhost, hport, hpath, -, -, hdsn, -, -, -, -, -, -, -, hssh, -⟩ := h
  replace hport := portText_inj hport
  replace hpath := unlessEmpty_inj hpath
  replace hdsn := unlessEmpty_inj hdsn
  refine ⟨?_, hengine, ?_⟩
  · simp only [ConnectionConfig.invalidity, hengine, hhost, hport, hpath, hdsn]
  · simpa using congrArg Option.isSome hssh

/-- The strategy depends on the key of the engine. -/
theorem strategyFor_congr (h : c₁.engineKey = c₂.engineKey) (hs : s₁.isSome = s₂.isSome) :
    table.strategyFor c₁.engine s₁.isSome = table.strategyFor c₂.engine s₂.isSome := by
  have hsupport : table.supportFor c₁.engine = table.supportFor c₂.engine := by
    rw [StrategyTable.supportFor, StrategyTable.supportFor]
    exact congrArg (fun key => (table.rows.lookup key).getD table.fallback) h
  rw [StrategyTable.strategyFor, StrategyTable.strategyFor, hsupport, hs]

/-- A request is refused as an invalid config, or its key and strategy are selected. -/
theorem selectWith_cases (digest : String → String) (table : StrategyTable) (c : ConnectionConfig)
    (s : Option SshTarget) :
    (∃ reason, selectWith digest table c s = .error (.configInvalid reason)) ∨
      ∃ strategy, selectWith digest table c s = .ok ⟨computeWith digest c s, strategy⟩ := by
  unfold selectWith ConnectionConfig.validate
  cases c.invalidity with
  | some reason => exact .inl ⟨reason, rfl⟩
  | none => exact .inr ⟨_, rfl⟩

/-- Requests with one key are refused for one reason, or get one strategy, whatever the digest. -/
theorem selectWith_eq_of_key (h : computeWith digest c₁ s₁ = computeWith digest c₂ s₂) :
    selectWith digest table c₁ s₁ = selectWith digest table c₂ s₂ := by
  obtain ⟨hvalid, hengine, hssh⟩ := routed_of_fields_eq (fields_eq_of_computeWith_eq h)
  rw [selectWith, selectWith, ConnectionConfig.validate, ConnectionConfig.validate, hvalid, h,
    strategyFor_congr hengine hssh]

/-- Two requests are refused for one reason, or both get the key and the strategy. -/
inductive Alike (key : Fingerprint) (o₁ o₂ : Except BrokerError Selection) : Prop where
  | refused (reason : String) (h₁ : o₁ = .error (.configInvalid reason))
    (h₂ : o₂ = .error (.configInvalid reason))
  | selected (strategy : Strategy) (h₁ : o₁ = .ok ⟨key, strategy⟩) (h₂ : o₂ = .ok ⟨key, strategy⟩)

theorem alike_of_key (h : computeWith digest c₁ s₁ = computeWith digest c₂ s₂) :
    Alike (computeWith digest c₁ s₁) (selectWith digest table c₁ s₁)
      (selectWith digest table c₂ s₂) := by
  have heq : selectWith digest table c₁ s₁ = selectWith digest table c₂ s₂ :=
    selectWith_eq_of_key h
  rcases selectWith_cases digest table c₁ s₁ with ⟨reason, hr⟩ | ⟨strategy, hs⟩
  · exact .refused reason hr (heq ▸ hr)
  · exact .selected strategy hs (heq ▸ hs)

end Selection

namespace Supplied

variable {s s' s'' : Supplied (Request × Strategy) Construction} {id : CallId}

/-- Every call that wants something built wanted it before. -/
def Wants (s s' : Supplied (Request × Strategy) Construction) : Prop :=
  ∀ row' ∈ s'.orders, ∃ row ∈ s.orders, row.1 = row'.1 ∧ row.2.wanted = row'.2.wanted

theorem Wants.refl (s : Supplied (Request × Strategy) Construction) : s.Wants s :=
  fun row hrow => ⟨row, hrow, rfl, rfl⟩

theorem Wants.trans (h : s.Wants s') (h' : s'.Wants s'') : s.Wants s'' := by
  intro row hrow
  obtain ⟨row', hrow', hid', hwanted'⟩ := h' row hrow
  obtain ⟨row'', hrow'', hid'', hwanted''⟩ := h row' hrow'
  exact ⟨row'', hrow'', hid''.trans hid', hwanted''.trans hwanted'⟩

/-- How far a build is says nothing else than what is wanted. -/
theorem wants_setOrder {wanted : Request × Strategy} {begun begun' : Nat}
    {build build' : Option Construction} (h : s.order? id = some ⟨wanted, begun, build⟩) :
    s.Wants (s.setOrder id ⟨wanted, begun', build'⟩) := by
  intro row' hrow'
  obtain ⟨row, hrow, rfl⟩ := List.mem_map.1 hrow'
  by_cases hid : row.1 == id
  · refine ⟨(id, _), mem_of_order h, ?_, ?_⟩ <;> simp [hid]
  · exact ⟨row, hrow, by simp [hid]⟩

theorem wants_supply (s : Supplied (Request × Strategy) Construction) (id : CallId) :
    s.Wants (s.supply Broker.supplier id) := by
  unfold Supplied.supply
  split
  · rename_i ho
    exact wants_setOrder ho
  · exact .refl s

theorem wants_answer (s : Supplied (Request × Strategy) Construction) (id : CallId)
    (a : Construction.Answer) : s.Wants (s.answer Broker.supplier id a) := by
  unfold Supplied.answer
  split
  · rename_i wanted begun build ho
    generalize Broker.supplier.resume build a s.cache.net = r
    obtain ⟨p, net⟩ := r
    cases p with
    | waiting build' => exact wants_setOrder ho
    | ended b =>
      have hset : s.Wants (s.setOrder id ⟨wanted, begun, none⟩) := wants_setOrder ho
      exact hset.trans (wants_supply _ id)
  · exact .refl s

end Supplied

namespace Broker

variable {b : Broker} {ev : Event}

/-- What a call of the broker wants built was selected for its request, under its key. -/
def Routed (table : StrategyTable) (s : Supplied (Request × Strategy) Construction) : Prop :=
  ∀ row ∈ s.orders, ∃ call selection, s.cache.calls[row.1]? = some call ∧
    Selection.select table row.2.wanted.1.config row.2.wanted.1.target = .ok selection ∧
    call.operation = .get selection.fingerprint ∧ row.2.wanted.2 = selection.strategy

/-- A step begins a call for the service of a request, or nothing new is wanted. -/
theorem step_wants (b : Broker) (ev : Event) :
    (∃ r selection, b.select r = .ok selection ∧ (b.step ev).supply =
      (b.supply.get supplier selection.fingerprint (r, selection.strategy)).2) ∨
    b.supply.Wants (b.step ev).supply := by
  have same : b.supply.Wants b.supply := .refl b.supply
  cases ev with
  | getService r =>
    cases hs : b.select r with
    | error e =>
      rw [step_getService_error hs]
      exact .inr same
    | ok selection => exact .inl ⟨r, selection, hs, step_getService hs⟩
  | closeService r =>
    cases hs : b.select r with
    | error e =>
      rw [step_closeService_error hs]
      exact .inr same
    | ok selection =>
      rw [step_closeService hs]
      exact .inr same
  | operate op =>
    refine .inr ?_
    cases op <;> exact same
  | connected id r =>
    refine .inr ?_
    rw [step, connected]
    split
    · exact same
    · cases r with
      | error e => exact Supplied.wants_answer b.supply id _
      | ok traits => exact Supplied.wants_answer (b.setCache _).supply id _
  | listening id r => exact .inr (Supplied.wants_answer b.supply id _)
  | created id r => exact .inr (Supplied.wants_answer b.supply id _)
  | serviceClosed id => exact .inr (Supplied.wants_supply (b.setCache _).supply id)
  | wake id => exact .inr (Supplied.wants_supply (b.setCache _).supply id)
  | drop t =>
    refine .inr ?_
    rw [step, drop]
    split <;> exact same
  | _ => exact .inr same

theorem table_step (b : Broker) (ev : Event) : (b.step ev).table = b.table := by
  cases ev with
  | getService r =>
    cases hs : b.select r with
    | error e => rw [step_getService_error hs]
    | ok selection => simp [step, getService, hs, accepted, bind, Except.bind, pure, Except.pure]
  | closeService r =>
    cases hs : b.select r with
    | error e => rw [step_closeService_error hs]
    | ok selection =>
      rw [step_closeService hs]
      rfl
  | operate op => cases op <;> rfl
  | connected id r =>
    rw [step, connected]
    split
    · rfl
    · cases r <;> rfl
  | drop t =>
    rw [step, drop]
    split <;> rfl
  | _ => rfl

/-- What was selected stays selected : calls keep their operations, and what they want. -/
theorem Routed.wants {table : StrategyTable} {s s' : Supplied (Request × Strategy) Construction}
    (hr : Routed table s) (h : s.Wants s') (hc : s.cache.Continues s'.cache)
    (hs : s.cache.Sound) : Routed table s' := by
  intro row' hrow'
  obtain ⟨row, hrow, hid, hwanted⟩ := h row' hrow'
  obtain ⟨call, selection, hcall, hselect, hop, hstrategy⟩ := hr row hrow
  obtain ⟨call', hcall', hop', -⟩ := (hc.strides hs).keeps_call hcall
  rw [hid] at hcall'
  rw [hwanted] at hselect hstrategy
  exact ⟨call', selection, hcall', hselect, hop'.trans hop, hstrategy⟩

/-- A call that begins wants what was selected for its request. -/
theorem Routed.get {table : StrategyTable} {s : Supplied (Request × Strategy) Construction}
    (hr : Routed table s) (hs : s.cache.Sound) {r : Request} {selection : Selection}
    (h : Selection.select table r.config r.target = .ok selection) :
    Routed table (s.get supplier selection.fingerprint (r, selection.strategy)).2 := by
  have hcall : s.cache.Continues (s.cache.step (.call (.get selection.fingerprint))) :=
    (Cache.Continues.refl s.cache).step (by simp)
  have hnew : (s.cache.call (.get selection.fingerprint)).2.calls[s.cache.calls.length]? =
      some ⟨.get selection.fingerprint,
        (Cache.begin s.cache.calls.length s.cache (.get selection.fingerprint)).1⟩ := by
    have hcalls := (Cache.moves_frame (Cache.performs_begin s.cache.calls.length
      (.get selection.fingerprint) (by simp) s.cache).moves).1
    simp [Cache.call, show (Cache.begin s.cache.calls.length s.cache
      (.get selection.fingerprint)).2.calls = s.cache.calls from hcalls]
  have hordered : Routed table { s with
      cache := (s.cache.call (.get selection.fingerprint)).2
      orders := s.orders ++ [(s.cache.calls.length, ⟨(r, selection.strategy), 0, none⟩)] } := by
    have hlater : Routed table { s with
        cache := (s.cache.call (.get selection.fingerprint)).2 } :=
      hr.wants (.refl s) hcall hs
    intro row hrow
    rcases List.mem_append.1 hrow with hold | hlast
    · exact hlater row hold
    · obtain rfl := List.mem_singleton.1 hlast
      exact ⟨_, selection, hnew, h, rfl, rfl⟩
  exact hordered.wants (Supplied.wants_supply _ _) (continues_supply _ _)
    ((hcall.strides hs).sound hs)

theorem routed_step (hr : Routed b.table b.supply) (hs : b.cache.Sound) (ev : Event) :
    Routed b.table (b.step ev).supply := by
  rcases b.step_wants ev with ⟨r, selection, hselect, hstep⟩ | hwants
  · rw [hstep]
    exact hr.get hs hselect
  · exact hr.wants hwants (does_step b ev).continues hs

/-- What the calls of a broker want built was selected for them. -/
theorem routed_run (settings : BrokerSettings) (table : StrategyTable) (events : List Event) :
    Routed table ((new settings table).run events).supply := by
  have step : ∀ (events : List Event) (b : Broker), b.cache.Sound → Routed b.table b.supply →
      Routed b.table (b.run events).supply := by
    intro events
    induction events with
    | nil => exact fun b _ hr => hr
    | cons ev events ih =>
      intro b hs hr
      have hnext := ih (b.step ev) ((((does_step b ev).continues).strides hs).sound hs)
        (by rw [table_step]; exact routed_step hr hs ev)
      rwa [table_step] at hnext
  exact step events _ (.new _) (by simp [Routed, new, Supplied.new])

/-- The call asks for the service of the key, and would build it by the strategy. -/
def WouldBuild (b : Broker) (id : CallId) (key : Fingerprint) (strategy : Strategy) : Prop :=
  (b.cache.calls[id]?).map (·.operation) = some (.get key) ∧
    (b.supply.order? id).map (·.wanted.2) = some strategy

/-- Two calls for one key would build by one strategy. -/
theorem routes_agree (settings : BrokerSettings) (table : StrategyTable) (events : List Event)
    {id₁ id₂ : CallId} {key : Fingerprint} {strategy₁ strategy₂ : Strategy}
    (h₁ : ((new settings table).run events).WouldBuild id₁ key strategy₁)
    (h₂ : ((new settings table).run events).WouldBuild id₂ key strategy₂) :
    strategy₁ = strategy₂ := by
  have selected : ∀ {id strategy}, ((new settings table).run events).WouldBuild id key strategy →
      ∃ c s, Fingerprint.compute c s = key ∧ Selection.select table c s = .ok ⟨key, strategy⟩ := by
    rintro id strategy ⟨hcall, horder⟩
    obtain ⟨call, hfound, hop⟩ := Option.map_eq_some_iff.1 hcall
    obtain ⟨order, hordered, rfl⟩ := Option.map_eq_some_iff.1 horder
    obtain ⟨call', selection, hfound', hselect, hop', hstrategy⟩ :=
      routed_run settings table events (id, order) (Supplied.mem_of_order hordered)
    obtain rfl : call' = call := Option.some.inj (hfound'.symm.trans hfound)
    obtain rfl : selection.fingerprint = key := by simpa using hop'.symm.trans hop
    refine ⟨order.wanted.1.config, order.wanted.1.target, ?_, by rw [hselect, hstrategy]⟩
    rcases Selection.selectWith_cases Sha256.hexDigest table order.wanted.1.config
      order.wanted.1.target with ⟨reason, hr⟩ | ⟨strategy, hs⟩
    · cases hr.symm.trans hselect
    · exact congrArg Selection.fingerprint (Except.ok.inj (hs.symm.trans hselect))
  obtain ⟨c₁, s₁, hkey₁, hselect₁⟩ := selected h₁
  obtain ⟨c₂, s₂, hkey₂, hselect₂⟩ := selected h₂
  have heq : Selection.select table c₁ s₁ = Selection.select table c₂ s₂ :=
    Selection.selectWith_eq_of_key (hkey₁.trans hkey₂.symm)
  rw [hselect₁, hselect₂] at heq
  exact (Selection.mk.inj (Except.ok.inj heq)).2

/-- Whatever the digest does, requests with one key are refused for one reason or get one strategy.
So in every run of a broker the calls that ask for one key would all reach its service in one
way. -/
theorem routed_by_key :
    (∀ (digest : String → String) (table : StrategyTable) (c₁ c₂ : ConnectionConfig)
        (s₁ s₂ : Option SshTarget),
      Fingerprint.computeWith digest c₁ s₁ = Fingerprint.computeWith digest c₂ s₂ →
        Selection.selectWith digest table c₁ s₁ = Selection.selectWith digest table c₂ s₂ ∧
        Selection.Alike (Fingerprint.computeWith digest c₁ s₁)
          (Selection.selectWith digest table c₁ s₁) (Selection.selectWith digest table c₂ s₂)) ∧
    ∀ (settings : BrokerSettings) (table : StrategyTable) (events : List Event)
        (id₁ id₂ : CallId) (key : Fingerprint) (strategy₁ strategy₂ : Strategy),
      ((new settings table).run events).WouldBuild id₁ key strategy₁ →
        ((new settings table).run events).WouldBuild id₂ key strategy₂ → strategy₁ = strategy₂ := by
  refine ⟨fun digest table c₁ c₂ s₁ s₂ h => ?_, fun settings table events id₁ id₂ key strategy₁
    strategy₂ => routes_agree settings table events⟩
  exact ⟨Selection.selectWith_eq_of_key h, Selection.alike_of_key h⟩

/-- A request for a database behind a host, the engine spelled in some way. -/
def behindBastion (engine password : String) : Request where
  config := (ConnectionConfig.new engine "db" 1521).withCredentials "" password
  target := some ⟨"bastion", 22, "ops", .agent⟩

/-- Two callers that spell the engine in two ways race for one key. -/
def race : List Event :=
  [.getService (behindBastion "oracle" ""), .getService (behindBastion " Oracle" "")]

/-- Under a digest that tells no secrets apart, two requests with two passwords have one key and are
selected alike. Of two callers that race for one key, either would go through a local port. -/
theorem routed_by_key_of_collision :
    (Fingerprint.computeWith (fun _ => "") (behindBastion "oracle" "p").config none =
        Fingerprint.computeWith (fun _ => "") (behindBastion " Oracle" "q").config none ∧
      Selection.selectWith (fun _ => "") .builtin (behindBastion "oracle" "p").config none =
        Selection.selectWith (fun _ => "") .builtin (behindBastion " Oracle" "q").config none) ∧
    ∃ key, ((new .default .builtin).run race).WouldBuild 0 key .localForward ∧
      ((new .default .builtin).run race).WouldBuild 1 key .localForward := by
  have hcollide : Fingerprint.computeWith (fun _ => "") (behindBastion "oracle" "p").config none =
      Fingerprint.computeWith (fun _ => "") (behindBastion " Oracle" "q").config none := by decide
  refine ⟨⟨hcollide, (routed_by_key.1 _ .builtin _ _ _ _ hcollide).1⟩,
    Fingerprint.compute (behindBastion "oracle" "").config (behindBastion "oracle" "").target, ?_⟩
  have hfirst : ((new .default .builtin).run race).WouldBuild 0
      (Fingerprint.compute (behindBastion "oracle" "").config (behindBastion "oracle" "").target)
      .localForward := ⟨by decide +kernel, by decide +kernel⟩
  have hsecond : (((new .default .builtin).run race).cache.calls[1]?).map (·.operation) =
      some (.get (Fingerprint.compute (behindBastion "oracle" "").config
        (behindBastion "oracle" "").target)) := by decide +kernel
  have hordered : (((new .default .builtin).run race).supply.order? 1).isSome := by decide +kernel
  obtain ⟨order, horder⟩ := Option.isSome_iff_exists.1 hordered
  have hlater : ((new .default .builtin).run race).WouldBuild 1
      (Fingerprint.compute (behindBastion "oracle" "").config (behindBastion "oracle" "").target)
      order.wanted.2 := ⟨hsecond, by rw [horder, Option.map_some]⟩
  refine ⟨hfirst, ?_⟩
  rwa [← routed_by_key.2 .default .builtin race 0 1 _ _ _ hfirst hlater] at hlater

end Broker

end ConnectionBroker
