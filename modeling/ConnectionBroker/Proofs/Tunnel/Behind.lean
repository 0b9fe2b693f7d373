import ConnectionBroker.Tunnel.Lifecycle

/-!
# Behind a tunnel

What a step behind a tunnel can come to is a short list (`Forwarding.Move`) : something arrives at
the listener, the loop takes its turn, or one pair goes on. From the list follows what every step
leaves alone : the remote endpoint, the stop signal, and every pair but the one that the step is
about. Of the loop only its turn is heard, and only before it was told to stop.

`Forwarding.Exact` says what the books come to : every dial is that of another pair, to the
endpoint, and the count is the number of pairs that relay. It holds of a loop that has just begun,
and every step keeps it.
-/

namespace ConnectionBroker.Forwarding

variable {f f' : Forwarding} {e : Event} {p q : Nat} {phase : PairPhase}

/-- The pair that an event is about. -/
def Event.pair? : Event → Option Nat
  | .connection => none
  | .acceptError => none
  | .turn => none
  | .dial p => some p
  | .dialled p => some p
  | .dialFailed p => some p
  | .relayEnded p => some p

/-- What a step comes to. -/
inductive Move (f : Forwarding) : Event → Forwarding → Prop
  | idle {e : Event} : Move f e f
  | arrive {e : Event} (he : e.pair? = none) (a : Arrival) :
      Move f e { f with arrivals := f.arrivals ++ [a] }
  /-- The loop was told to stop. -/
  | stop : Move f .turn { f with ended := true, arrivals := [] }
  | accept {rest : List Arrival} (hstopped : f.stopped = false)
      (harrivals : f.arrivals = .connection :: rest) :
      Move f .turn { f with arrivals := rest, pairs := f.pairs ++ [.accepted] }
  | fail {rest : List Arrival} (hstopped : f.stopped = false)
      (harrivals : f.arrivals = .failure :: rest) :
      Move f .turn { f with ended := true, dead := true, arrivals := [] }
  | dial {p : Nat} (hp : f.pairs[p]? = some .accepted) :
      Move f (.dial p) { f.move p .dialling with dials := ⟨p, f.host, f.port⟩ :: f.dials }
  | dialled {p : Nat} (hp : f.pairs[p]? = some .dialling) :
      Move f (.dialled p) { f.move p .relaying with active := f.active + 1 }
  | dialFailed {p : Nat} (hp : f.pairs[p]? = some .dialling) :
      Move f (.dialFailed p) (f.move p .ended)
  | relayEnded {p : Nat} (hp : f.pairs[p]? = some .relaying) :
      Move f (.relayEnded p) { f.move p .ended with active := f.active - 1 }

theorem inPhase_iff : f.inPhase p phase = true ↔ f.pairs[p]? = some phase := by
  rw [inPhase, beq_iff_eq]

theorem move_turn (f : Forwarding) : Move f .turn f.turn := by
  rw [turn]
  split
  · exact .idle
  · split
    · exact .stop
    · next hstopped =>
      rw [Bool.not_eq_true] at hstopped
      split
      · exact .idle
      · next harrivals => exact .accept hstopped harrivals
      · next harrivals => exact .fail hstopped harrivals

theorem step_move (f : Forwarding) (e : Event) : Move f e (f.step e) := by
  cases e <;> simp only [step, Forwarding.arrive, inPhase_iff]
  case turn => exact f.move_turn
  all_goals split
  all_goals constructor
  all_goals first | assumption | rfl

/-! ## What a step leaves alone -/

theorem Move.endpoint (h : Move f e f') : f'.host = f.host ∧ f'.port = f.port := by
  cases h <;> exact ⟨rfl, rfl⟩

/-- The loop is not told to stop by what goes on behind the tunnel. -/
theorem Move.stopped (h : Move f e f') : f'.stopped = f.stopped := by
  cases h <;> rfl

/-- The loop dies of an error that it takes before it is told to stop, and of nothing else. -/
theorem Move.dead (h : Move f e f') :
    f'.dead = f.dead ∨
      f'.dead = true ∧ e = .turn ∧ f.stopped = false ∧ f.arrivals.head? = some .failure := by
  cases h with
  | fail hstopped harrivals => exact .inr ⟨rfl, rfl, hstopped, by rw [harrivals]; rfl⟩
  | _ => exact .inl rfl

/-- No connection is accepted by a loop that was told to stop. -/
theorem Move.length_pairs (h : Move f e f') (hstopped : f.stopped = true) :
    f'.pairs.length = f.pairs.length := by
  cases h with
  | accept hgoes => exact absurd hstopped (by simp [hgoes])
  | fail => rfl
  | _ => simp [Forwarding.move]

/-- A pair stays as it is in every step that is about another pair, or about none. -/
theorem Move.pair_eq (h : Move f e f') (hq : q < f.pairs.length) (he : e.pair? ≠ some q) :
    f'.pairs[q]? = f.pairs[q]? := by
  cases h with
  | accept => exact List.getElem?_append_left hq
  | idle | arrive | stop | fail => rfl
  | dial | dialled | dialFailed | relayEnded =>
    exact List.getElem?_set_ne fun heq => he (congrArg some heq)

/-- A pair that relays goes on until its own relay ends. -/
theorem Move.relaying (h : Move f e f') (hp : f.pairs[p]? = some .relaying)
    (he : e ≠ .relayEnded p) : f'.pairs[p]? = some .relaying := by
  obtain ⟨hlt, -⟩ := List.getElem?_eq_some_iff.1 hp
  by_cases hpair : e.pair? = some p
  · -- The other steps of a pair are taken by pairs that do not relay.
    cases h with
    | idle => exact hp
    | arrive hnone => rw [hnone] at hpair; cases hpair
    | stop | accept | fail => cases hpair
    | dial hq | dialled hq | dialFailed hq => cases hpair; cases hp.symm.trans hq
    | relayEnded => cases hpair; exact absurd rfl he
  · rw [h.pair_eq hlt hpair, hp]

/-- The end of a pair is its own affair. -/
theorem Move.ends_alone (h : Move f e f') (he : e = .dialFailed p ∨ e = .relayEnded p) :
    f'.dead = f.dead ∧ f'.stopped = f.stopped ∧ f'.ended = f.ended ∧ f'.arrivals = f.arrivals ∧
      f'.dials = f.dials ∧ ∀ q, q ≠ p → f'.pairs[q]? = f.pairs[q]? := by
  have hset : ∀ q, q ≠ p → (f.pairs.set p .ended)[q]? = f.pairs[q]? :=
    fun q hq => List.getElem?_set_ne hq.symm
  rcases he with rfl | rfl
  · cases h with
    | idle => exact ⟨rfl, rfl, rfl, rfl, rfl, fun _ _ => rfl⟩
    | arrive hnone => cases hnone
    | dialFailed => exact ⟨rfl, rfl, rfl, rfl, rfl, hset⟩
  · cases h with
    | idle => exact ⟨rfl, rfl, rfl, rfl, rfl, fun _ _ => rfl⟩
    | arrive hnone => cases hnone
    | relayEnded => exact ⟨rfl, rfl, rfl, rfl, rfl, hset⟩

/-! ## The books -/

/-- Every dial is that of another pair, which was accepted before, and leads to the endpoint; and
the pairs that relay are counted. -/
structure Exact (f : Forwarding) : Prop where
  dialled : ∀ d ∈ f.dials, ∃ phase, f.pairs[d.pair]? = some phase ∧ phase ≠ .accepted
  once : (f.dials.map PairDial.pair).Nodup
  remote : ∀ d ∈ f.dials, d.host = f.host ∧ d.port = f.port
  active : f.active = f.pairs.count .relaying

theorem exact_start (host : String) (port : UInt16) : Exact (start host port) :=
  ⟨nofun, .nil, nofun, rfl⟩

/-- Moving a pair changes the count by what it was before and what it is after. -/
theorem count_move (hp : f.pairs[p]? = some phase) (phase' : PairPhase) :
    (f.move p phase').pairs.count .relaying + (if phase = .relaying then 1 else 0) =
      f.pairs.count .relaying + (if phase' = .relaying then 1 else 0) := by
  obtain ⟨hlt, hget⟩ := List.getElem?_eq_some_iff.1 hp
  rw [Forwarding.move, List.count_set hlt, hget]
  have hcounted : phase = .relaying → 0 < f.pairs.count .relaying := by
    rintro rfl
    exact List.count_pos_iff.2 (List.mem_of_getElem? hp)
  split <;> split <;> simp_all

/-- A pair that has been dialled for is not accepted only, wherever it is moved. -/
theorem Exact.dialled_move (h : Exact f) {phase' : PairPhase} (hphase : phase' ≠ .accepted) :
    ∀ d ∈ f.dials, ∃ phase, (f.move p phase').pairs[d.pair]? = some phase ∧ phase ≠ .accepted := by
  intro d hd
  obtain ⟨phase, hpair, hne⟩ := h.dialled d hd
  obtain ⟨hlt, -⟩ := List.getElem?_eq_some_iff.1 hpair
  by_cases hp : p = d.pair
  · subst hp
    exact ⟨phase', List.getElem?_set_self hlt, hphase⟩
  · exact ⟨phase, (List.getElem?_set_ne hp).trans hpair, hne⟩

/-- A pair that was only just accepted was not dialled for. -/
theorem Exact.not_dialled (h : Exact f) (hp : f.pairs[p]? = some .accepted) :
    p ∉ f.dials.map PairDial.pair := by
  intro hmem
  obtain ⟨d, hd, rfl⟩ := List.mem_map.1 hmem
  obtain ⟨phase, hpair, hne⟩ := h.dialled d hd
  exact hne (Option.some.inj (hpair.symm.trans hp))

theorem Exact.move (h : Exact f) (m : Move f e f') : Exact f' := by
  cases m with
  | idle => exact h
  | arrive _ a => exact ⟨h.dialled, h.once, h.remote, h.active⟩
  | stop => exact ⟨h.dialled, h.once, h.remote, h.active⟩
  | fail => exact ⟨h.dialled, h.once, h.remote, h.active⟩
  | accept hstopped harrivals =>
    refine ⟨fun d hd => ?_, h.once, h.remote, ?_⟩
    · obtain ⟨phase, hpair, hne⟩ := h.dialled d hd
      obtain ⟨hlt, -⟩ := List.getElem?_eq_some_iff.1 hpair
      exact ⟨phase, (List.getElem?_append_left hlt).trans hpair, hne⟩
    · simp [h.active]
  | @dial p hp =>
    have hlt : p < f.pairs.length := (List.getElem?_eq_some_iff.1 hp).1
    refine ⟨List.forall_mem_cons.2 ⟨⟨.dialling, List.getElem?_set_self hlt, nofun⟩, ?_⟩,
      List.nodup_cons.2 ⟨h.not_dialled hp, h.once⟩,
      List.forall_mem_cons.2 ⟨⟨rfl, rfl⟩, h.remote⟩, ?_⟩
    · exact h.dialled_move nofun
    · exact h.active.trans (by simpa using (count_move hp .dialling).symm)
  | dialled hp =>
    refine ⟨h.dialled_move nofun, h.once, h.remote, ?_⟩
    have hcount := count_move hp .relaying
    simp [h.active] at hcount ⊢
    exact hcount.symm
  | dialFailed hp =>
    refine ⟨h.dialled_move nofun, h.once, h.remote, ?_⟩
    exact h.active.trans (by simpa using (count_move hp .ended).symm)
  | relayEnded hp =>
    refine ⟨h.dialled_move nofun, h.once, h.remote, ?_⟩
    have hcount := count_move hp .ended
    simp [h.active] at hcount ⊢
    omega

/-- A pair that relays is counted, so its end can be taken off the count. -/
theorem Exact.active_pos (h : Exact f) (hp : f.pairs[p]? = some .relaying) : 0 < f.active := by
  rw [h.active]
  exact List.count_pos_iff.2 (List.mem_of_getElem? hp)

/-- Nothing is counted once every pair has ended. -/
theorem Exact.active_eq_zero (h : Exact f) (hended : ∀ phase ∈ f.pairs, phase = .ended) :
    f.active = 0 := by
  rw [h.active]
  exact List.count_eq_zero_of_not_mem fun hmem => by cases hended _ hmem

/-- The stop signal changes nothing in the books. -/
theorem Exact.stop (h : Exact f) : Exact f.stop :=
  ⟨h.dialled, h.once, h.remote, h.active⟩

end ConnectionBroker.Forwarding
