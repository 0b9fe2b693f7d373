import ConnectionBroker.Proofs.Cache.Deeds

/-!
# Claimed teardowns are finished, or stranded

Whoever claims the teardown of an entry releases it, and the only call that does not get to the
end of it is one that is cancelled. Where nobody cancels calls from outside, that can only be a
sweep of the sweeper that is stopped, by a shutdown or by a new sweeper, before it has released
everything that it claimed (`Stranded`). At rest every claimed entry is released in full, by the
call that claimed it, or else it was stranded (`released_iff_not_stranded`).
-/

namespace ConnectionBroker

/-- The call releases the entry or is to release it. -/
def Hand.Holds (h : Hand) (e : EntryId) : Prop :=
  h.releasing = some e ∨ e ∈ h.claimed

/-- The call has ended. -/
def Activity.isEnded : Activity → Bool
  | .ended _ => true
  | _ => false

theorem Activity.isEnded_iff (a : Activity) : a.isEnded = true ↔ ∃ r, a = .ended r := by
  cases a <;> simp [isEnded]

namespace Cache

variable {id : CallId} {c c' : Cache} {e : EntryId} {d : CallId × Deed} {events : List Event}

/-- Every call has ended. -/
def AtRest (c : Cache) : Prop :=
  ∀ call ∈ c.calls, ∃ r, call.activity = .ended r

instance (c : Cache) : Decidable c.AtRest :=
  decidable_of_iff (∀ call ∈ c.calls, call.activity.isEnded = true) <|
    forall_congr' fun call => imp_congr_right fun _ => call.activity.isEnded_iff

/-- The sweeper was stopped while its sweep had the entry in hand. -/
def Stranded (c : Cache) (events : List Event) (e : EntryId) : Prop :=
  ∃ before ev after s id, events = before ++ ev :: after ∧ ev.StopsSweeper ∧
    (c.run before).sweeper = some s ∧ s.running = some id ∧ ((c.run before).hands id).Holds e

theorem not_holds_empty : ¬({} : Hand).Holds e := by
  simp [Hand.Holds]

theorem AtRest.hands (hrest : c.AtRest) (id : CallId) : c.hands id = {} := by
  unfold Cache.hands
  cases ha : c.activity? id with
  | none => rfl
  | some a =>
    obtain ⟨call, hcall, rfl⟩ := activity?_eq_some_iff.1 ha
    obtain ⟨r, hr⟩ := hrest call (List.mem_of_getElem? hcall)
    rw [hr]
    rfl

/-! ## Who abandons what -/

/-- A cancelled call abandons what it has in hand, and that is all that cancelling enters in the
journal. -/
theorem mem_journal_abort (c : Cache) (id : CallId) : d ∈ (c.abort id).journal ↔
    d ∈ c.journal ∨ ∃ e, (c.hands id).Holds e ∧ d = (id, .abandon e) := by
  rcases c.abort_cases id with ⟨hself, hempty⟩ | ⟨call, hcall, hlive⟩
  · rw [hself, hempty]
    simp [not_holds_empty]
  · have hholds : ∀ e, (c.hands id).Holds e ↔
        e ∈ call.activity.releasing?.toList ++ call.activity.claimed := by
      intro e
      rw [hands_of_call hcall, List.mem_append, Option.mem_toList]
      rfl
    rw [journal_abort hcall hlive, List.mem_append, List.mem_map]
    simp only [hholds, eq_comm]

/-- Stopping the sweeper abandons what its sweep has in hand. -/
theorem mem_journal_stopSweeper (c : Cache) : d ∈ c.stopSweeper.journal ↔
    d ∈ c.journal ∨ ∃ s id e, c.sweeper = some s ∧ s.running = some id ∧
      (c.hands id).Holds e ∧ d = (id, .abandon e) := by
  rcases c.stopSweeper_cases with ⟨heq, hidle⟩ | ⟨s, id, hs, hr, heq⟩ <;> rw [heq]
  · refine (or_iff_left ?_).symm
    rintro ⟨s, id, e, hs, hr, -⟩
    simp [hidle s hs] at hr
  · have hhands : ({ c with sweeper := none } : Cache).hands = c.hands := hands_congr rfl
    rw [mem_journal_abort, hhands]
    simp [hs, hr]

/-- Where no call is cancelled, nothing is abandoned. -/
theorem Stride.not_abandoned (hs : Stride (fun _ => False) c c')
    (hd : (id, .abandon e) ∈ c'.journal) : (id, .abandon e) ∈ c.journal := by
  rcases hs.journal_cases with hj | ⟨i, call, ds, -, hds, hj⟩ | ⟨_, _, _, hP, -⟩
  · rwa [hj] at hd
  · rw [hj] at hd
    refine (List.mem_append.1 hd).resolve_right fun hmem => ?_
    obtain ⟨d, hd, heq⟩ := List.mem_map.1 hmem
    obtain rfl : d = .abandon e := (Prod.mk.inj heq).2
    exact hds _ hd
  · exact hP.elim

theorem Strides.not_abandoned (hs : Strides (fun _ => False) c c')
    (hd : (id, .abandon e) ∈ c'.journal) : (id, .abandon e) ∈ c.journal := by
  induction hs with
  | refl => exact hd
  | tail _ hs ih => exact ih (hs.not_abandoned hd)

/-- A step that abandons an entry stops the sweeper, whose sweep has the entry in hand. -/
theorem abandon_step {ev : Event} (hc : c.Sound) (hext : ∀ id, ev ≠ .abort id)
    (hd : (id, .abandon e) ∈ (c.step ev).journal) (hnew : (id, .abandon e) ∉ c.journal) :
    ev.StopsSweeper ∧ ∃ s, c.sweeper = some s ∧ s.running = some id ∧ (c.hands id).Holds e := by
  by_cases hev : ev.StopsSweeper
  · refine ⟨hev, ?_⟩
    have hstopped := Strides.not_abandoned (strides_stopped hev c) hd
    obtain ⟨s, i, e', hs, hr, hholds, heq⟩ :=
      ((mem_journal_stopSweeper c).1 hstopped).resolve_left hnew
    obtain ⟨rfl, he⟩ := Prod.mk.inj heq
    obtain rfl : e = e' := Deed.abandon.inj he
    exact ⟨s, hs, hr, hholds⟩
  · refine absurd (Strides.not_abandoned (strides_step hc ?_ ?_) hd) hnew
    · exact fun h => absurd h hev
    · exact fun id h => absurd h (hext id)

/-- What is abandoned in a run is stranded : the induction is on the events, and the first step
after which the entry is abandoned is the one that strands it. -/
theorem stranded_of_abandon (hc : c.Sound) (hext : ∀ id, .abort id ∉ events)
    (hd : (id, .abandon e) ∈ (c.run events).journal) (hnew : (id, .abandon e) ∉ c.journal) :
    c.Stranded events e := by
  induction events generalizing c with
  | nil => exact absurd hd hnew
  | cons ev rest ih =>
    by_cases hstep : (id, .abandon e) ∈ (c.step ev).journal
    · obtain ⟨hev, s, hs, hr, hholds⟩ := abandon_step hc
        (fun id h => hext id (h ▸ List.mem_cons_self)) hstep hnew
      exact ⟨[], ev, rest, s, id, rfl, hev, hs, hr, hholds⟩
    · obtain ⟨before, ev', after, s, i, hsplit, hev, hrest⟩ := ih (hc.run [ev])
        (fun id h => hext id (List.mem_cons_of_mem _ h)) hd hstep
      exact ⟨ev :: before, ev', after, s, i, by rw [hsplit]; rfl, hev, hrest⟩

/-- What is stranded in a run is abandoned for good. -/
theorem abandon_of_stranded (hc : c.Sound) (hs : c.Stranded events e) :
    ∃ id, (id, .abandon e) ∈ (c.run events).journal := by
  obtain ⟨before, ev, after, s, id, rfl, hev, hsweeper, hr, hholds⟩ := hs
  refine ⟨id, ?_⟩
  have hstopped : (id, .abandon e) ∈ (c.run before).stopSweeper.journal :=
    (mem_journal_stopSweeper _).2 (.inr ⟨s, id, e, hsweeper, hr, hholds, rfl⟩)
  have hstep : Strides (fun _ => True) (c.run before).stopSweeper ((c.run before).step ev) :=
    strides_stopped hev _
  have hafter := strides_run_any ((hc.run before).run [ev]) after
  rw [run_append]
  exact (Strides.journal (hstep.trans hafter)).subset hstopped

/-! ## At rest -/

/-- At rest a claimed entry is released in full or abandoned. -/
theorem Account.released_or_abandoned (ha : Account c c.hands) (hrest : c.AtRest)
    (hclosed : c.isClosed e = true) :
    (∃ id, c.deedsOf e = released id e) ∨ ∃ id, (id, .abandon e) ∈ c.deedsOf e := by
  rcases ha.stage e ((ha.closed_iff e).1 hclosed) with ⟨i, hi⟩ | ⟨i, hi⟩ | hdone
  · rw [hrest.hands i] at hi
    cases hi
  · rw [hrest.hands i] at hi
    cases hi
  · exact hdone

theorem not_abandoned_of_released {i : CallId} (h : c.deedsOf e = released i e) :
    (id, .abandon e) ∉ c.journal := by
  intro hd
  have hmem : (id, .abandon e) ∈ c.deedsOf e := mem_deedsOf.2 ⟨hd, rfl⟩
  rw [h] at hmem
  simp [released] at hmem

/-- The accounts after a run. -/
theorem account_run (ttl : Nat) (events : List Event) :
    Account ((new ttl).run events) ((new ttl).run events).hands :=
  (kept_account _).strides (strides_run_any (.new ttl) events) (.new ttl)

/-- After a run in which nobody cancels calls from outside, when every call has ended, an entry
whose teardown is claimed is released in full, by one call and in order, just when it was not
stranded by stopping the sweeper. -/
theorem released_iff_not_stranded (ttl : Nat) (events : List Event)
    (hext : ∀ id, .abort id ∉ events) (hrest : ((new ttl).run events).AtRest) (e : EntryId)
    (hclosed : ((new ttl).run events).isClosed e = true) :
    (∃ id, ((new ttl).run events).deedsOf e = released id e) ↔ ¬(new ttl).Stranded events e := by
  constructor
  · rintro ⟨i, hi⟩ hs
    obtain ⟨id, hd⟩ := abandon_of_stranded (.new ttl) hs
    exact not_abandoned_of_released hi hd
  · intro hs
    refine ((account_run ttl events).released_or_abandoned hrest hclosed).resolve_right ?_
    rintro ⟨id, hd⟩
    exact hs (stranded_of_abandon (.new ttl) hext (mem_deedsOf.1 hd).1 List.not_mem_nil)

/-- The sweeper expires an entry, and its sweep ends before a shutdown stops it. -/
def sweptBeforeShutdown : List Event :=
  oneBuild ⟨"k"⟩ ++
    [.spawnSweeper 1000, .clock 1000, .tick, .serviceClosed 1, .call .shutdown]

/-- The sweep that has ended has released the entry in full, and the shutdown strands nothing. -/
theorem released_before_shutdown :
    (∃ id, ((new 1000).run sweptBeforeShutdown).deedsOf 0 = released id 0) ∧
      ¬(new 1000).Stranded sweptBeforeShutdown 0 := by
  have hdeeds : ∃ id, ((new 1000).run sweptBeforeShutdown).deedsOf 0 = released id 0 :=
    ⟨1, by decide⟩
  have hcalls : ((new 1000).run sweptBeforeShutdown).calls =
      [⟨.get ⟨"k"⟩, .ended (.service 0)⟩, ⟨.sweep, .ended (.count 1)⟩,
        ⟨.shutdown, .ended (.count 0)⟩] := by decide
  refine ⟨hdeeds, (released_iff_not_stranded 1000 _ ?_ ?_ 0 (by decide)).1 hdeeds⟩
  · simp [sweptBeforeShutdown, oneBuild]
  · intro call hcall
    rw [hcalls] at hcall
    simp only [List.mem_cons, List.not_mem_nil, or_false] at hcall
    rcases hcall with rfl | rfl | rfl <;> exact ⟨_, rfl⟩

/-- A shutdown that meets the sweeper while the service of an expired entry closes leaves the entry
claimed, its service told to close and its hop open, with nobody left to close it. -/
theorem stranded_by_shutdown :
    ((new 1000).run (oneBuild ⟨"k"⟩ ++
      [.spawnSweeper 1000, .clock 1000, .tick, .call .shutdown])).AtRest ∧
    ((new 1000).run (oneBuild ⟨"k"⟩ ++
      [.spawnSweeper 1000, .clock 1000, .tick, .call .shutdown])).isClosed 0 = true ∧
    ¬∃ id, ((new 1000).run (oneBuild ⟨"k"⟩ ++
      [.spawnSweeper 1000, .clock 1000, .tick, .call .shutdown])).deedsOf 0 = released id 0 := by
  have hcalls : ((new 1000).run (oneBuild ⟨"k"⟩ ++
      [.spawnSweeper 1000, .clock 1000, .tick, .call .shutdown])).calls =
        [⟨.get ⟨"k"⟩, .ended (.service 0)⟩, ⟨.sweep, .ended .aborted⟩,
          ⟨.shutdown, .ended (.count 0)⟩] := by decide
  have hdeeds : ((new 1000).run (oneBuild ⟨"k"⟩ ++
      [.spawnSweeper 1000, .clock 1000, .tick, .call .shutdown])).deedsOf 0 =
        [(1, .claim 0), (1, .tellService 0), (1, .abandon 0)] := by decide
  refine ⟨fun call hcall => ?_, by decide, ?_⟩
  · rw [hcalls] at hcall
    simp only [List.mem_cons, List.not_mem_nil, or_false] at hcall
    rcases hcall with rfl | rfl | rfl <;> exact ⟨_, rfl⟩
  · rintro ⟨id, hid⟩
    rw [hdeeds] at hid
    exact absurd (congrArg List.length hid) (by simp [released])

end Cache

end ConnectionBroker
