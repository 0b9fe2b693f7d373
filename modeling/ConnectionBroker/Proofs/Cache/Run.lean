import ConnectionBroker.Proofs.Cache.Slots

/-!
# Runs are chains of strides

Every step of the cache is a chain of strides (`strides_step`), and so is every run
(`strides_run`). Stopping the sweeper cancels a sweep at most; other calls are cancelled from
outside, by an `abort` that finds something to cancel. A run without such aborts (`Spared`) cancels
nothing but sweeps. A run without aborts is one (`spared_of_no_abort`), and so is a run after which
no call has come to `aborted` (`spared_of_no_aborted`).
-/

namespace ConnectionBroker

namespace Cache

open Relation (ReflGen ReflTransGen)

variable {id : CallId} {op : Operation} {c c' : Cache} {call : Call}
  {P : Call → Prop} {events : List Event}

/-- What every step relies on. -/
structure Sound (c : Cache) : Prop where
  attuned : c.Attuned
  guarded : Guarded c c.hands
  accounted : c.Accounted

theorem Sound.new (ttl : Nat) : Sound (new ttl) where
  attuned := ⟨by simp [Cache.new], by simp [Cache.new]⟩
  guarded := .new ttl
  accounted := by simp [Accounted, Cache.new]

theorem Stride.sound (hs : Stride P c c') (hc : c.Sound) : c'.Sound :=
  ⟨hs.attuned hc.attuned, (kept_guarded P).stride hs hc.guarded, hs.accounted hc.accounted⟩

theorem Strides.sound (hs : Strides P c c') (hc : c.Sound) : c'.Sound := by
  induction hs with
  | refl => exact hc
  | tail _ hs ih => exact hs.sound ih

theorem activity?_eq_some_iff {a : Activity} :
    c.activity? id = some a ↔ ∃ call, c.calls[id]? = some call ∧ call.activity = a := by
  simp [activity?]

theorem result?_eq_some_iff {r : Result} :
    c.result? id = some r ↔ ∃ call, c.calls[id]? = some call ∧ call.activity = .ended r := by
  rw [← activity?_eq_some_iff]
  unfold result?
  split <;> simp_all

/-- No call comes to a result that none of the calls has. -/
theorem result?_ne_iff {r : Result} :
    (∀ id, c.result? id ≠ some r) ↔ ∀ call ∈ c.calls, call.activity ≠ .ended r := by
  constructor
  · intro h call hcall hr
    obtain ⟨id, hid⟩ := List.getElem?_of_mem hcall
    exact h id (result?_eq_some_iff.2 ⟨call, hid, hr⟩)
  · intro h id hr
    obtain ⟨call, hcall, hr⟩ := result?_eq_some_iff.1 hr
    exact h call (List.mem_of_getElem? hcall) hr

/-! ## Cancelling -/

theorem abort_of_ended {r : Result} (h : c.activity? id = some (.ended r)) : c.abort id = c := by
  simp [abort, h]

theorem abort_of_none (h : c.calls[id]? = none) : c.abort id = c := by
  simp [abort, activity?, h]

/-- Only a call that is there and has not ended is cancelled. -/
theorem abort_cases (c : Cache) (id : CallId) :
    c.abort id = c ∧ c.hands id = {} ∨
      ∃ call, c.calls[id]? = some call ∧ ∀ r, call.activity ≠ .ended r := by
  cases hcall : c.calls[id]? with
  | none => exact .inl ⟨abort_of_none hcall, by simp [hands, activity?, hcall]⟩
  | some call =>
    by_cases hlive : ∀ r, call.activity ≠ .ended r
    · exact .inr ⟨call, rfl, hlive⟩
    · obtain ⟨r, hr⟩ := not_forall_not.1 hlive
      refine .inl ⟨abort_of_ended (activity?_eq_some_iff.2 ⟨call, hcall, hr⟩), ?_⟩
      rw [hands_of_call hcall, hr]
      rfl

/-- Cancelling a call has to do with the slots, the calls and the journal only. -/
theorem abort_frame (c : Cache) (id : CallId) :
    ∃ slots calls journal, c.abort id = { c with slots, calls, journal } := by
  rcases c.abort_cases id with ⟨hself, -⟩ | ⟨call, hcall, hlive⟩
  · exact ⟨_, _, _, hself⟩
  · obtain ⟨slots, hlet⟩ := letGo_eq id c call.activity
    rw [abort_of_call hcall hlive, hlet]
    exact ⟨_, _, _, rfl⟩

/-- A call that may be cancelled is cancelled in a stride, if at all. -/
theorem stride_abort (hfits : ∀ call ∈ c.calls, call.activity.Fits call.operation)
    (hP : ∀ call, c.calls[id]? = some call → P call) : ReflGen (Stride P) c (c.abort id) := by
  rcases c.abort_cases id with ⟨hself, -⟩ | ⟨call, hcall, hlive⟩
  · rw [hself]
  · exact .single (.cancel hcall hlive (hfits call (List.mem_of_getElem? hcall)) (hP call hcall))

/-- Stopping the sweeper cancels what it runs, and nothing else. -/
theorem stopSweeper_cases (c : Cache) :
    c.stopSweeper = { c with sweeper := none } ∧ (∀ s ∈ c.sweeper, s.running = none) ∨
      ∃ s id, c.sweeper = some s ∧ s.running = some id ∧
        c.stopSweeper = ({ c with sweeper := none } : Cache).abort id := by
  unfold stopSweeper
  cases hs : c.sweeper with
  | none =>
    have hself : { c with sweeper := none } = c := by rw [← hs]
    exact .inl ⟨hself.symm, by simp⟩
  | some s =>
    cases hr : s.running with
    | none => exact .inl ⟨by simp [hr], by simp [hr]⟩
    | some id => exact .inr ⟨s, id, rfl, hr, by simp [hr]⟩

/-- Stopping the sweeper has to do with the world and the entries as little as a cancelled call. -/
theorem stopSweeper_frame (c : Cache) : ∃ slots calls journal,
    c.stopSweeper = { c with slots, calls, journal, sweeper := none } := by
  rcases c.stopSweeper_cases with ⟨heq, -⟩ | ⟨s, id, -, -, heq⟩ <;> rw [heq]
  · exact ⟨_, _, _, rfl⟩
  · exact abort_frame { c with sweeper := none } id

/-- Stopping the sweeper cancels a sweep at most. -/
theorem strides_stopSweeper (hP : ∀ call, call.operation = .sweep → P call) (hc : c.Attuned) :
    Strides P c c.stopSweeper := by
  have hnone : Stride P c { c with sweeper := none } := .sweeper (by simp)
  rcases c.stopSweeper_cases with ⟨heq, -⟩ | ⟨s, id, hs, hr, heq⟩ <;> rw [heq]
  · exact .single hnone
  · refine .head hnone (stride_abort (c := { c with sweeper := none }) hc.fits
      fun call hcall => hP call ?_).to_reflTransGen
    obtain ⟨call', hcall', hop⟩ := hc.sweeps s id hs hr
    obtain rfl : call' = call := Option.some.inj (hcall'.symm.trans hcall)
    exact hop

theorem length_calls_abort (c : Cache) (id : CallId) :
    (c.abort id).calls.length = c.calls.length := by
  rcases c.abort_cases id with ⟨hself, -⟩ | ⟨call, hcall, hlive⟩
  · rw [hself]
  · rw [calls_abort hcall hlive, setActivity, List.length_modify]

theorem length_calls_stopSweeper (c : Cache) : c.stopSweeper.calls.length = c.calls.length := by
  rcases c.stopSweeper_cases with ⟨heq, -⟩ | ⟨s, id, -, -, heq⟩ <;> rw [heq]
  exact length_calls_abort _ _

/-! ## Steps -/

theorem stride_call (hop : op ≠ .shutdown) (c : Cache) : Stride P c (c.call op).2 :=
  .start (performs_begin c.calls.length op hop c)

/-- A shutdown stops the sweeper before anything else. -/
theorem stride_shutdown (c : Cache) : Stride P c.stopSweeper (c.call .shutdown).2 := by
  have hstart : Stride P c.stopSweeper _ :=
    .start (performs_shutdown c.stopSweeper.calls.length c.stopSweeper)
  rwa [length_calls_stopSweeper] at hstart

/-- A new sweeper takes the place of the one before after that is stopped. -/
theorem strides_spawnSweeper (c : Cache) (interval : Nat) :
    Strides P c.stopSweeper (c.spawnSweeper interval) := by
  unfold spawnSweeper
  dsimp only
  split
  · exact .refl
  · refine .single (.sweeper fun s id hs hr => ?_)
    obtain rfl := Option.some.inj hs
    cases hr

theorem setActivity_self {a : Activity} (h : c.activity? id = some a) : c.setActivity id a = c := by
  obtain ⟨call, hcall, rfl⟩ := activity?_eq_some_iff.1 h
  have hmodify : c.calls.modify id (fun call' => { call' with activity := call.activity }) =
      c.calls := by
    refine List.ext_getElem? fun i => ?_
    by_cases hi : id = i
    · subst hi
      simp [hcall]
    · simp [hi]
  simp [setActivity, hmodify]

/-- A call builds in a slot that is there. -/
theorem Sound.lt_of_building {key : Fingerprint} {left : Nat} {slot : SlotId} (hc : c.Sound)
    (ha : c.activity? id = some (.getting key left (.building slot))) : slot < c.slots.length := by
  obtain ⟨call, hcall, hact⟩ := activity?_eq_some_iff.1 ha
  refine lt_of_slotKey? (hc.guarded.building id key slot ?_).1
  rw [hands_of_call hcall, hact]
  rfl

/-- The step of one call : it goes on for a stretch of the given kind, or it stays where it is. -/
def Goes (Q : CallId → Operation → Cache × Hand → Activity × Cache → Prop) (c : Cache) (id : CallId)
    (c' : Cache) : Prop :=
  c' = c ∨ ∃ call r, c.calls[id]? = some call ∧ (∀ r, call.activity ≠ .ended r) ∧
    Q id call.operation (c, call.activity.hand) r ∧ c' = r.2.setActivity id r.1

theorem Goes.resumes (h : Goes Performs c id c') : Goes Resumes c id c' := by
  rcases h with rfl | ⟨call, r, hcall, hlive, hp, rfl⟩
  · exact .inl rfl
  · exact .inr ⟨call, r, hcall, hlive, .of_performs hp, rfl⟩

theorem Goes.stride (h : Goes Resumes c id c') : ReflGen (Stride P) c c' := by
  rcases h with rfl | ⟨call, r, hcall, hlive, hp, rfl⟩
  · exact .refl
  · exact .single (.resume hcall hlive hp)

/-- A call that has not ended goes on for a stretch. -/
theorem goes_setActivity {Q : CallId → Operation → Cache × Hand → Activity × Cache → Prop}
    {a : Activity} {r : Activity × Cache} (hc : c.Attuned) (ha : c.activity? id = some a)
    (hlive : ∀ r, a ≠ .ended r) (hp : ∀ op, a.Fits op → Q id op (c, a.hand) r) :
    Goes Q c id (r.2.setActivity id r.1) := by
  obtain ⟨call, hcall, rfl⟩ := activity?_eq_some_iff.1 ha
  exact .inr ⟨call, r, hcall, hlive, hp _ (hc.fits call (List.mem_of_getElem? hcall)), rfl⟩

theorem goes_serviceClosed (hc : c.Attuned) (id : CallId) :
    Goes Performs c id (c.serviceClosed id) := by
  unfold serviceClosed
  split
  · rename_i a ha
    by_cases hlive : ∀ r, a ≠ .ended r
    · exact goes_setActivity hc ha hlive fun op hfit => performs_afterClose hfit hlive c
    · obtain ⟨r, rfl⟩ := not_forall_not.1 hlive
      exact .inl (setActivity_self ha)
  · exact .inl rfl

/-- A build ends in a slot that is there. -/
theorem goes_built (hc : c.Sound) (id : CallId) (b : Built) : Goes Resumes c id (c.built id b) := by
  unfold built
  split
  · rename_i key left slot ha
    have hslot : slot < c.slots.length := hc.lt_of_building ha
    have hget : ∀ op, (Activity.getting key left (.building slot)).Fits op → op = .get key :=
      fun op hfit => hfit.building rfl
    cases b with
    | panicked =>
      exact goes_setActivity hc.attuned ha (by simp) (r := (.ended .panicked, c.passOn slot))
        fun op hfit => hget op hfit ▸ resumes_panic
    | failed err =>
      exact goes_setActivity hc.attuned ha (by simp)
        fun op hfit => hget op hfit ▸ resumes_fail hslot
    | resource r =>
      exact goes_setActivity hc.attuned ha (by simp)
        fun op hfit => hget op hfit ▸ resumes_settle hslot
  · exact .inl rfl

theorem goes_wake (hc : c.Attuned) (id : CallId) : Goes Performs c id (c.wake id) := by
  unfold wake
  split
  · rename_i key left slot ha
    have hget : ∀ op, (Activity.getting key left (.waiting slot)).Fits op → op = .get key := by
      intro op hfit
      cases op <;> simp_all [Activity.Fits]
    split
    · rename_i o ho
      exact goes_setActivity hc ha (by simp) fun op hfit => hget op hfit ▸ performs_leave ho
    · rename_i ho
      split
      · rename_i hb
        exact goes_setActivity hc ha (by simp)
          (r := (.getting key left (.building slot), c.note id (.build slot)))
          fun op hfit => hget op hfit ▸ performs_promote hb ho
      · exact .inl rfl
  · exact .inl rfl

theorem strides_tick (c : Cache) : Strides P c c.tick := by
  unfold tick
  split
  · split
    · have hcall : Stride P c (c.call .sweep).2 := stride_call (by simp) c
      refine .head hcall (.single (.sweeper fun s id hs hr => ?_))
      obtain rfl := Option.some.inj hs
      obtain rfl : c.calls.length = id := Option.some.inj hr
      have hcalls : (begin c.calls.length c .sweep).2.calls = c.calls :=
        (moves_frame (performs_begin c.calls.length .sweep (by simp) c).moves).1
      exact ⟨⟨.sweep, (begin c.calls.length c .sweep).1⟩, by simp [Cache.call, hcalls], rfl⟩
    · exact .refl
  · exact .refl

/-- The event stops the sweeper, in the middle of a sweep perhaps. -/
def Event.StopsSweeper : Event → Prop
  | .call .shutdown => True
  | .spawnSweeper _ => True
  | _ => False

/-- What stops the sweeper does so before anything else, and cancels nothing after that. -/
theorem strides_stopped {ev : Event} (hev : ev.StopsSweeper) (c : Cache) :
    Strides P c.stopSweeper (c.step ev) := by
  cases ev with
  | call op =>
    cases op with
    | shutdown => exact .single (stride_shutdown c)
    | _ => exact hev.elim
  | spawnSweeper interval => exact strides_spawnSweeper c interval
  | _ => exact hev.elim

/-- A step is one stride, if it changes anything at all, unless it starts or stops a sweep of the
sweeper. -/
theorem stride_step (hc : c.Sound) {ev : Event} (hstop : ¬ev.StopsSweeper) (htick : ev ≠ .tick)
    (habort : ∀ id, ev = .abort id → (∀ call, P call) ∨ c.abort id = c) :
    ReflGen (Stride P) c (c.step ev) := by
  cases ev with
  | call op => exact .single (stride_call (fun hop => hstop (by rw [hop]; trivial)) c)
  | serviceClosed id => exact (goes_serviceClosed hc.attuned id).resumes.stride
  | built id b => exact (goes_built hc id b).stride
  | wake id => exact (goes_wake hc.attuned id).resumes.stride
  | abort id =>
    rcases habort id rfl with hall | hself
    · exact stride_abort hc.attuned.fits fun call _ => hall call
    · rw [step, hself]
  | spawnSweeper interval => exact absurd trivial hstop
  | tick => exact absurd rfl htick
  | clock t => exact .single (.world _ (Nat.le_max_left _ _))
  | sever s => exact .single (.world _ (Nat.le_refl _))
  | forward t e => exact .single (.world _ (Nat.le_refl _))
  | world net => exact .single (.world _ (Nat.le_max_left _ _))
  | reorder rows =>
    rw [step, reorder]
    split
    · exact .single (.reorder (List.isPerm_iff.1 ‹_›))
    · exact .refl

/-- Every step is a chain of strides. Only what stops the sweeper and an `abort` cancel calls. -/
theorem strides_step (hc : c.Sound) {ev : Event}
    (hstop : ev.StopsSweeper → ∀ call, call.operation = .sweep → P call)
    (habort : ∀ id, ev = .abort id → (∀ call, P call) ∨ c.abort id = c) :
    Strides P c (c.step ev) := by
  by_cases hev : ev.StopsSweeper
  · exact (strides_stopSweeper (hstop hev) hc.attuned).trans (strides_stopped hev c)
  · by_cases htick : ev = .tick
    · rw [htick]
      exact strides_tick c
    · exact (stride_step hc hev htick habort).to_reflTransGen

/-! ## Runs -/

/-- No event of the run cancels a call from outside. -/
def Spared (c : Cache) (events : List Event) : Prop :=
  ∀ before id after, events = before ++ .abort id :: after →
    (c.run before).abort id = c.run before

theorem run_append (c : Cache) (before after : List Event) :
    c.run (before ++ after) = (c.run before).run after :=
  List.foldl_append

/-- Every run is a chain of strides. -/
theorem strides_run (hsweep : ∀ call, call.operation = .sweep → P call)
    (habort : (∀ call, P call) ∨ c.Spared events) (hc : c.Sound) :
    Strides P c (c.run events) := by
  induction events generalizing c with
  | nil => exact .refl
  | cons ev rest ih =>
    have hstep : Strides P c (c.step ev) := by
      refine strides_step hc (fun _ => hsweep) fun id hev => habort.imp_right fun h => ?_
      exact h [] id rest (by rw [hev]; rfl)
    refine hstep.trans (ih (habort.imp_right fun h before id after hsplit => ?_) (hstep.sound hc))
    exact h (ev :: before) id after (by rw [hsplit]; rfl)

/-- Every run is a chain of strides in which any call may be cancelled. -/
theorem strides_run_any (hc : c.Sound) (events : List Event) :
    Strides (fun _ => True) c (c.run events) :=
  strides_run (fun _ _ => trivial) (.inl fun _ => trivial) hc

/-- A run that spares its calls is a chain of strides in which only sweeps are cancelled. -/
theorem strides_run_spared (hc : c.Sound) (hspared : c.Spared events) :
    Strides (fun call => call.operation = .sweep) c (c.run events) :=
  strides_run (fun _ h => h) (.inr hspared) hc

theorem Sound.run (hc : c.Sound) (events : List Event) : (c.run events).Sound :=
  (strides_run_any hc events).sound hc

theorem spared_of_no_abort (h : ∀ id, .abort id ∉ events) : c.Spared events := by
  rintro before id after rfl
  exact absurd (by simp) (h id)

/-- Cancelling a call does nothing to it, or it comes to `aborted`. -/
theorem abort_eq_or_aborted (c : Cache) (id : CallId) :
    c.abort id = c ∨ (c.abort id).result? id = some .aborted := by
  rcases c.abort_cases id with ⟨hself, -⟩ | ⟨call, hcall, hlive⟩
  · exact .inl hself
  · refine .inr (result?_eq_some_iff.2 ⟨{ call with activity := .ended .aborted }, ?_, rfl⟩)
    simp [calls_abort hcall hlive, setActivity, hcall]

/-- Where no call has come to `aborted`, no call was cancelled : results are final. -/
theorem spared_of_no_aborted (hc : c.Sound)
    (h : ∀ id, (c.run events).result? id ≠ some .aborted) : c.Spared events := by
  intro before id after hsplit
  refine ((c.run before).abort_eq_or_aborted id).resolve_right fun hresult => h id ?_
  have hsplit' : events = (before ++ [.abort id]) ++ after := by simp [hsplit]
  have hafter : Strides (fun _ => True) (c.run (before ++ [.abort id])) (c.run events) := by
    rw [hsplit', run_append c (before ++ [Event.abort id]) after]
    exact strides_run_any (hc.run _) after
  rw [run_append] at hafter
  exact hafter.result? hresult

/-! ## A small run -/

/-- A world where a session was opened. -/
def oneSession : Network :=
  (Network.empty.openSession (.withPassword "h" 22 "u" "p") .lasting).2

/-- An entry is built for a key, over a session that the factory has opened. -/
def oneBuild (key : Fingerprint) : List Event :=
  [.call (.get key), .world oneSession, .built 0 (.resource ⟨0, .channel 0⟩)]

end Cache

end ConnectionBroker
