import Mathlib.Data.Prod.Lex
import ConnectionBroker.Proofs.Cache.Disposal
import ConnectionBroker.Proofs.Cache.Sweeping

/-!
# How long an entry overstays

The sweeper ticks at fixed times. Between two ticks callers use entries, build new ones and close
old ones, hops die, and the releases of a sweep take their turn. A step between ticks leaves no
lodgers but those that were there and those that it vouches for (`Passes`), and a tick vouches
for all that it leaves (`Ticked.lodged`). So once the sweeper has ticked, every lodger was fit for
use not more than an interval before the next tick (`VouchedLately`), whenever that was, and the
next tick is never more than an interval ahead : `Paced` carries both along a run.

Where everything that is due has run (`Settled`) the next tick is still to come, so every entry of
the map was fit for use less than an interval ago (`overstay_bounded`). What is due takes no time
and runs out, in whatever order it runs : every service that is closed leaves one entry less to
release, and every tick brings the sweeper nearer to the present (`Due.lowers`). So every run can go
on until everything that is due has run (`exists_settled`).
-/

namespace ConnectionBroker

namespace Cache

variable {id : CallId} {c c' : Cache} {key : Fingerprint} {slot : SlotId} {e : EntryId}
  {entry : Entry} {ev : Event} {ttl interval bound : Nat} {events after : List Event} {s : Sweeper}

/-! ## Steps between ticks -/

/-- A step that is no tick has no lodgers but those that were there before, as they were, and those
that are vouched for. -/
structure Passes (c c' : Cache) : Prop where
  now_le : c.net.now ≤ c'.net.now
  sweeper : c'.sweeper = c.sweeper
  lodged : ∀ e entry, c'.Lodged e entry → c.Lodged e entry ∨ c.Vouched entry

namespace Passes

theorem of_lodges (h : c.Lodges c') (hsweeper : c'.sweeper = c.sweeper) : Passes c c' :=
  ⟨Nat.le_of_eq h.wanes.now.symm, hsweeper, h.lodged⟩

/-- The rows change places at most. -/
theorem of_frame (hnow : c.net.now ≤ c'.net.now) (hsweeper : c'.sweeper = c.sweeper)
    (hrows : ∀ row ∈ c'.current, row ∈ c.current)
    (hout : ∀ slot, c'.outcome? slot = c.outcome? slot)
    (hentries : c'.entries = c.entries) : Passes c c' :=
  ⟨hnow, hsweeper, fun _ _ hl => .inl (hl.of_views hrows
    (fun slot _ hr => (ready?_congr (hout slot)).symm.trans hr) fun _ he _ => hentries ▸ he)⟩

theorem abort (c : Cache) (id : CallId) : Passes c (c.abort id) := by
  rcases c.abort_cases id with ⟨hself, -⟩ | ⟨call, hcall, hlive⟩
  · rw [hself]
    exact of_lodges (.refl c) rfl
  · obtain ⟨slots, hlet⟩ := letGo_eq id c call.activity
    obtain ⟨-, -, hout⟩ := letGo_views id c call.activity
    rw [abort_of_call hcall hlive]
    rw [hlet] at hout ⊢
    exact of_frame (Nat.le_refl _) rfl (fun _ hr => hr) hout rfl

end Passes

theorem Goes.sweeper (hg : Goes Resumes c id c') : c'.sweeper = c.sweeper := by
  rcases hg with rfl | ⟨call, r, hcall, hlive, hp, rfl⟩
  · rfl
  · exact (moves_frame hp.moves).2.1

/-- A step that does not stop the sweeper passes, unless it is a tick that was due. -/
theorem step_cases (hc : c.Sound) (hf : Filed c c.hands) (hstop : ¬ev.StopsSweeper) :
    Passes c (c.step ev) ∨ ∃ s, c.sweeper = some s ∧ Ticked c (c.step ev) s := by
  have hsame : Passes c c := .of_lodges (.refl c) rfl
  cases ev with
  | call op =>
    have hop : op ≠ .shutdown := by
      rintro rfl
      exact hstop trivial
    have hframe := moves_frame (performs_begin c.calls.length op hop c).moves
    exact .inl (.of_lodges (.call hop c) hframe.2.1)
  | serviceClosed id =>
    have hg := goes_serviceClosed hc.attuned id
    exact .inl (.of_lodges (.goes hg) hg.resumes.sweeper)
  | built id b => exact .inl (.of_lodges (.built hc hf id b) (goes_built hc id b).sweeper)
  | wake id =>
    have hg := goes_wake hc.attuned id
    exact .inl (.of_lodges (.goes hg) hg.resumes.sweeper)
  | abort id => exact .inl (.abort c id)
  | spawnSweeper interval => exact absurd trivial hstop
  | tick =>
    rw [step]
    rcases c.tick_cases with ⟨heq, -⟩ | ht
    · rw [heq]
      exact .inl hsame
    · exact .inr ht
  | clock t | world net =>
    exact .inl (.of_frame (Nat.le_max_left _ _) rfl (fun _ hr => hr) (fun _ => rfl) rfl)
  | sever s | forward t e =>
    exact .inl (.of_frame (Nat.le_refl _) rfl (fun _ hr => hr) (fun _ => rfl) rfl)
  | reorder rows =>
    rw [step, reorder]
    split
    · exact .inl (.of_frame (Nat.le_refl _) rfl
        (fun _ hr => (List.isPerm_iff.1 ‹_›).mem_iff.1 hr) (fun _ => rfl) rfl)
    · exact .inl hsame

/-! ## Runs with a sweeper -/

/-- At some time of a run, not more than an interval before the given one, the entry was fit for
use. -/
def VouchedLately (ttl interval : Nat) (events : List Event) (next : Nat) (entry : Entry) : Prop :=
  ∃ early, early <+: events ∧ next ≤ ((new ttl).run early).net.now + interval ∧
    ((new ttl).run early).Vouched entry

theorem VouchedLately.mono {next : Nat} (h : VouchedLately ttl interval events next entry)
    (ev : Event) : VouchedLately ttl interval (events ++ [ev]) next entry := by
  obtain ⟨early, hearly, hnext, hv⟩ := h
  exact ⟨early, hearly.trans (List.prefix_append _ _), hnext, hv⟩

/-- At the end of a run the sweeper's next tick is at most an interval ahead, and either it comes no
later than the bound or every lodger was fit for use not more than an interval before it. -/
structure Paced (ttl interval bound : Nat) (events : List Event) (s : Sweeper) : Prop where
  sweeper : ((new ttl).run events).sweeper = some s
  every : s.interval = interval
  next_le : s.nextTick ≤ ((new ttl).run events).net.now + interval
  lodged : s.nextTick ≤ bound ∨ ∀ e entry, ((new ttl).run events).Lodged e entry →
    VouchedLately ttl interval events s.nextTick entry

namespace Paced

/-- Every event keeps the pace that does not stop the sweeper. -/
theorem step (hp : Paced ttl interval bound events s) (hstop : ¬ev.StopsSweeper) :
    ∃ s', Paced ttl interval bound (events ++ [ev]) s' := by
  have hrun : (new ttl).run (events ++ [ev]) = ((new ttl).run events).step ev := run_append _ _ _
  -- What is vouched for in this step was so at the time of this step.
  have hvouched : ∀ next entry, next ≤ ((new ttl).run events).net.now + interval →
      ((new ttl).run events).Vouched entry →
        VouchedLately ttl interval (events ++ [ev]) next entry :=
    fun next entry hnext hv => ⟨events, List.prefix_append _ _, hnext, hv⟩
  rcases step_cases ((Sound.new ttl).run events) (filed_run ttl events) hstop with
    hpass | ⟨s', hs', ht⟩
  · rw [← hrun] at hpass
    refine ⟨s, hpass.sweeper.trans hp.sweeper, hp.every,
      Nat.le_trans hp.next_le (Nat.add_le_add_right hpass.now_le _), hp.lodged.imp_right ?_⟩
    intro hold e entry hl
    rcases hpass.lodged e entry hl with hl | hv
    · exact (hold e entry hl).mono ev
    · exact hvouched s.nextTick entry hp.next_le hv
  · obtain rfl : s = s' := Option.some.inj (hp.sweeper.symm.trans hs')
    have hnext : s.nextTick + s.interval ≤ ((new ttl).run events).net.now + interval :=
      Nat.add_le_add ht.due (Nat.le_of_eq hp.every)
    rw [← hrun] at ht
    refine ⟨_, ht.sweeper, hp.every, ?_, .inr fun e entry hl => ?_⟩
    · rw [ht.wanes.now]
      exact hnext
    · exact hvouched _ entry hnext (ht.lodged hl)

/-- Every run keeps the pace that does not stop the sweeper. -/
theorem run (hp : Paced ttl interval bound events s) (hstop : ∀ ev ∈ after, ¬ev.StopsSweeper) :
    ∃ s', Paced ttl interval bound (events ++ after) s' := by
  induction after generalizing events s with
  | nil => exact ⟨s, by rwa [List.append_nil]⟩
  | cons ev after ih =>
    obtain ⟨s', hp'⟩ := hp.step (hstop ev List.mem_cons_self)
    rw [List.append_cons]
    exact ih hp' fun ev hev => hstop ev (List.mem_cons_of_mem _ hev)

end Paced

/-- A new sweeper first ticks an interval after its start. -/
theorem paced_spawnSweeper (hpos : 0 < interval) (ttl : Nat) (events : List Event) :
    Paced ttl interval (((new ttl).run events).net.now + interval)
      (events ++ [.spawnSweeper interval])
      ⟨interval, ((new ttl).run events).net.now + interval, none⟩ := by
  have hnet : ((new ttl).run events).stopSweeper.net = ((new ttl).run events).net := by
    obtain ⟨slots, calls, journal, heq⟩ := ((new ttl).run events).stopSweeper_frame
    rw [heq]
  have hrun : (new ttl).run (events ++ [.spawnSweeper interval]) =
      ((new ttl).run events).spawnSweeper interval := run_append _ _ _
  rw [spawnSweeper, if_neg (Nat.ne_of_gt hpos), hnet] at hrun
  refine ⟨by rw [hrun], rfl, Nat.le_of_eq ?_, .inl (Nat.le_refl _)⟩
  rw [hrun, ← hnet]

/-! ## Settling -/

/-- Everything that is due has run. Closing a service takes no time, so no call waits for a service
to be closed, and the sweeper's next tick is still to come. -/
structure Settled (c : Cache) : Prop where
  closed : ∀ call ∈ c.calls, call.activity.releasing? = none
  ticked : ∀ t ∈ c.tickDue?, c.net.now < t

/-- Where everything that is due has run, the next tick is still to come : the sweep before it has
ended. -/
theorem Settled.lt_nextTick (hset : c.Settled) (hc : c.Sound) (hs : c.sweeper = some s) :
    c.net.now < s.nextTick := by
  refine hset.ticked s.nextTick ?_
  have hidle : c.sweeperIdle s = true := by
    unfold sweeperIdle
    cases hr : s.running with
    | none => rfl
    | some id =>
      obtain ⟨call, hcall, hop⟩ := hc.attuned.sweeps s id hs hr
      have hmem := List.mem_of_getElem? hcall
      have hfit := hc.attuned.fits call hmem
      have hrel := hset.closed call hmem
      rw [hop] at hfit
      cases ha : call.activity with
      | ended r => simp [result?_eq_some_iff.2 ⟨call, hcall, ha⟩]
      | sweeping e rest total => simp [ha, Activity.releasing?] at hrel
      | _ => simp [ha, Activity.Fits] at hfit
  simp [tickDue?, hs, hidle]

/-- Something is due : the service that a call has told to close is to be closed, or the sweeper's
next tick has come. -/
def Due (c : Cache) : Event → Prop
  | .serviceClosed id => ∃ call e, c.calls[id]? = some call ∧ call.activity.releasing? = some e
  | .tick => ∃ t, c.tickDue? = some t ∧ t ≤ c.net.now
  | _ => False

/-- Of some events, each is due when its turn comes. -/
def AllDue (c : Cache) : List Event → Prop
  | [] => True
  | ev :: rest => c.Due ev ∧ (c.step ev).AllDue rest

/-- Everything that is due has run just when nothing is due. -/
theorem settled_iff : c.Settled ↔ ∀ ev, ¬c.Due ev := by
  constructor
  · rintro ⟨hclosed, hticked⟩ ev hdue
    cases ev with
    | serviceClosed id =>
      obtain ⟨call, e, hcall, hrel⟩ := hdue
      rw [hclosed call (List.mem_of_getElem? hcall)] at hrel
      cases hrel
    | tick =>
      obtain ⟨t, ht, hle⟩ := hdue
      exact absurd hle (Nat.not_le_of_lt (hticked t ht))
    | _ => exact hdue
  · intro h
    refine ⟨fun call hcall => ?_, fun t ht => Nat.lt_of_not_le fun hle => h .tick ⟨t, ht, hle⟩⟩
    obtain ⟨id, hid⟩ := List.getElem?_of_mem hcall
    by_contra hrel
    obtain ⟨e, he⟩ := Option.ne_none_iff_exists'.1 hrel
    exact h (.serviceClosed id) ⟨call, e, hid, he⟩

/-- What is due takes no time. -/
theorem Due.now (hc : c.Sound) (hdue : c.Due ev) : (c.step ev).net.now = c.net.now := by
  cases ev with
  | serviceClosed id => exact (Lodges.goes (goes_serviceClosed hc.attuned id)).wanes.now
  | tick =>
    rw [step]
    rcases c.tick_cases with ⟨heq, -⟩ | ⟨s, -, ht⟩
    · rw [heq]
    · exact ht.wanes.now
  | _ => exact hdue.elim

/-- How far the sweeper's next tick is behind. -/
def arrears (c : Cache) : Nat :=
  match c.sweeper with
  | some s => c.net.now + 1 - s.nextTick
  | none => 0

/-- With every service that is closed one entry more is released. -/
theorem card_unreleased_serviceClosed_lt (hc : c.Sound) (ha : Account c c.hands) {call : Call}
    (hcall : c.calls[id]? = some call) (hrel : call.activity.releasing? = some e) :
    (c.serviceClosed id).unreleased.card < c.unreleased.card := by
  have hfit := hc.attuned.fits call (List.mem_of_getElem? hcall)
  set r := afterClose id c call.activity with hr
  have hp : Performs id call.operation
      (c.endRelease id e, { call.activity.hand with releasing := none }) r :=
    performs_endRelease hfit hrel c
  have hstep : c.serviceClosed id = r.2.setActivity id r.1 := by
    simp [serviceClosed, activity?, hcall, hr]
  have hbefore : c.unreleased = e ::ₘ (c.endRelease id e).unreleased :=
    unreleased_of_releasing ha (by rw [hands_of_call hcall]; exact hrel)
  have hafter : r.2.unreleased ≤ (c.endRelease id e).unreleased := by
    obtain ⟨-, -, ds, -, hj⟩ := moves_frame hp.moves
    refine unreleased_le (resources_walk hp.walk) ?_
    rw [disposals_of_append ds hj]
    exact List.subset_append_left _ _
  calc (c.serviceClosed id).unreleased.card = r.2.unreleased.card := by rw [hstep]; rfl
    _ ≤ (c.endRelease id e).unreleased.card := Multiset.card_le_card hafter
    _ < c.unreleased.card := by
        rw [hbefore, Multiset.card_cons]
        exact Nat.lt_succ_self _

/-- The sweeper is less far behind after a tick that was due, and no further after a service is
closed, with which there is less to release. -/
theorem Due.lowers (hc : c.Sound) (ha : Account c c.hands)
    (hpos : ∀ s ∈ c.sweeper, 0 < s.interval) (hdue : c.Due ev) :
    Prod.Lex (· < ·) (· < ·) ((c.step ev).arrears, (c.step ev).unreleased.card)
      (c.arrears, c.unreleased.card) := by
  cases ev with
  | serviceClosed id =>
    obtain ⟨call, e, hcall, hrel⟩ := hdue
    have hg := goes_serviceClosed hc.attuned id
    have harrears : (c.serviceClosed id).arrears = c.arrears := by
      rw [arrears, hg.resumes.sweeper, (Lodges.goes hg).wanes.now, arrears]
    rw [step, harrears]
    exact .right _ (card_unreleased_serviceClosed_lt hc ha hcall hrel)
  | tick =>
    obtain ⟨t, ht, hle⟩ := hdue
    rcases c.tick_cases with ⟨-, hnot⟩ | ⟨s, hs, hticked⟩
    · exact absurd hle (Nat.not_le_of_lt (hnot t ht))
    · refine .left _ _ ?_
      have hinterval := hpos s hs
      have hdue := hticked.due
      rw [step, arrears, hticked.sweeper, hticked.wanes.now, arrears, hs]
      dsimp only
      omega
  | _ => exact hdue.elim

/-- The interval of a sweeper is positive, for one without an interval ends at once. -/
theorem interval_pos_step (hc : c.Sound) (hf : Filed c c.hands)
    (hpos : ∀ s ∈ c.sweeper, 0 < s.interval) : ∀ s ∈ (c.step ev).sweeper, 0 < s.interval := by
  obtain ⟨slots, calls, journal, hstopped⟩ := c.stopSweeper_frame
  by_cases hstop : ev.StopsSweeper
  · cases ev with
    | call op =>
      cases op with
      | shutdown =>
        have hnone : (c.call .shutdown).2.sweeper = c.stopSweeper.sweeper :=
          (moves_frame (performs_shutdown c.calls.length c.stopSweeper).moves).2.1
        rw [step, hnone, hstopped]
        simp
      | _ => exact hstop.elim
    | spawnSweeper interval =>
      rw [step, spawnSweeper, hstopped]
      dsimp only
      split
      · simp
      · rintro s ⟨⟩
        exact Nat.pos_of_ne_zero ‹_›
    | _ => exact hstop.elim
  · rcases step_cases hc hf hstop with hpass | ⟨s, hs, ht⟩
    · rwa [hpass.sweeper]
    · rw [ht.sweeper]
      rintro _ ⟨⟩
      exact hpos s hs

theorem interval_pos_run (ttl : Nat) (events : List Event) :
    ∀ s ∈ ((new ttl).run events).sweeper, 0 < s.interval := by
  induction events using List.reverseRecOn with
  | nil => simp [run, new]
  | append_singleton events ev ih =>
    rw [run_append]
    exact interval_pos_step ((Sound.new ttl).run events) (filed_run ttl events) ih

/-- After every run what is due comes to an end, in whatever order it runs. -/
theorem acc_due (ttl : Nat) (events : List Event) :
    Acc (fun c' c => ∃ ev, c.Due ev ∧ c' = c.step ev) ((new ttl).run events) := by
  have hwf : WellFounded (Prod.Lex (· < · : Nat → Nat → Prop) (· < · : Nat → Nat → Prop)) :=
    WellFounded.prod_lex wellFounded_lt wellFounded_lt
  generalize hm : (((new ttl).run events).arrears, ((new ttl).run events).unreleased.card) = m
  induction m using hwf.induction generalizing events with
  | _ m ih =>
    refine ⟨_, ?_⟩
    rintro _ ⟨ev, hdue, rfl⟩
    have hlowers := hdue.lowers ((Sound.new ttl).run events) (account_run ttl events)
      (interval_pos_run ttl events)
    rw [hm] at hlowers
    have hrun : ((new ttl).run events).step ev = (new ttl).run (events ++ [ev]) :=
      (run_append _ events [ev]).symm
    rw [hrun] at hlowers ⊢
    exact ih _ hlowers (events ++ [ev]) rfl

/-- Every run can go on with what is due, without any time passing, until everything that is due has
run. -/
theorem exists_settled (ttl : Nat) (events : List Event) : ∃ due,
    ((new ttl).run events).AllDue due ∧ ((new ttl).run (events ++ due)).Settled ∧
      ((new ttl).run (events ++ due)).net.now = ((new ttl).run events).net.now := by
  generalize hc : (new ttl).run events = c
  have hacc := acc_due ttl events
  rw [hc] at hacc
  induction hacc generalizing events with
  | intro c hacc ih =>
    by_cases hset : c.Settled
    · refine ⟨[], trivial, ?_, ?_⟩ <;> rw [List.append_nil, hc]
      exact hset
    · obtain ⟨ev, hdue⟩ := not_forall_not.1 fun h => hset (settled_iff.2 h)
      have hsound : c.Sound := hc ▸ (Sound.new ttl).run events
      have hrun : (new ttl).run (events ++ [ev]) = c.step ev := by
        rw [run_append, hc]
        rfl
      obtain ⟨due, hall, hsettled, hnow⟩ := ih (c.step ev) ⟨ev, hdue, rfl⟩ (events ++ [ev]) hrun
      rw [List.append_assoc, List.singleton_append] at hsettled hnow
      exact ⟨ev :: due, ⟨hdue, hall⟩, hsettled, hnow.trans (hdue.now hsound)⟩

/-! ## Overstaying -/

/-- The entry stays within its bounds at the end of a run : it has not been idle for its time to
live and an interval, and its hop was alive less than an interval ago, so that a hop that never
comes back to life has not been dead for an interval. -/
structure InBounds (ttl interval : Nat) (events : List Event) (entry : Entry) : Prop where
  idle_lt : ((new ttl).run events).net.now - entry.lastUse < ttl + interval
  alive : ∃ early, early <+: events ∧
    ((new ttl).run events).net.now < ((new ttl).run early).net.now + interval ∧
      ¬((new ttl).run early).net.Dead entry.resource.hop

/-- A tick leaves an entry where and as it is that is fit for use when its row is looked at. -/
theorem tick_spares (hc : c.Sound) (hf : Filed c c.hands)
    {pre post : List (Fingerprint × SlotId)} (hrow : c.current = pre ++ (key, slot) :: post)
    (hready : c.ready? slot = some e) (he : c.entries[e]? = some entry)
    (hv : (past c.calls.length pre c).Vouched entry) :
    (key, slot) ∈ c.tick.current ∧ c.tick.entries[e]? = some entry := by
  rcases c.tick_cases with ⟨hsame, -⟩ | ⟨s, -, ht⟩
  · rw [hsame]
    exact ⟨by rw [hrow]; simp, he⟩
  · rw [ht.rows, ht.entries, hrow]
    refine kept_of_vouched hready he (fun row hmem hready' => ?_) hv
    obtain ⟨k, s'⟩ := row
    obtain rfl := hf.ready_inj s' slot e hready' hready
    exact hc.guarded.not_mem_of_split hrow k hmem

/-- The sweeper bounds overstaying. In every run in which a sweeper is started and neither stopped
nor replaced after that, an interval after its start or later and wherever everything that is due
has run, every entry of the map is in bounds. And in every run no tick takes an entry out or closes
it that was used within its time to live and whose hop is alive when the tick comes to its row. -/
theorem overstay_bounded (ttl : Nat) (before after : List Event) (interval : Nat)
    (hpos : 0 < interval) (hkeep : ∀ ev ∈ after, ¬ev.StopsSweeper) :
    (((new ttl).run (before ++ .spawnSweeper interval :: after)).Settled →
      ((new ttl).run before).net.now + interval ≤
        ((new ttl).run (before ++ .spawnSweeper interval :: after)).net.now →
      ∀ key slot e entry,
        (key, slot) ∈ ((new ttl).run (before ++ .spawnSweeper interval :: after)).current →
        ((new ttl).run (before ++ .spawnSweeper interval :: after)).ready? slot = some e →
        ((new ttl).run (before ++ .spawnSweeper interval :: after)).entries[e]? = some entry →
        InBounds ttl interval (before ++ .spawnSweeper interval :: after) entry) ∧
    ∀ events pre key slot post e entry,
      ((new ttl).run events).current = pre ++ (key, slot) :: post →
      ((new ttl).run events).ready? slot = some e →
      ((new ttl).run events).entries[e]? = some entry →
      ((new ttl).run events).net.now - entry.lastUse < ttl →
      ¬(past ((new ttl).run events).calls.length pre ((new ttl).run events)).net.Dead
        entry.resource.hop →
      (key, slot) ∈ ((new ttl).run events).tick.current ∧
        ((new ttl).run events).tick.entries[e]? = some entry := by
  constructor
  · intro hset hlate key slot e entry hrow hready he
    obtain ⟨s, hpaced⟩ := (paced_spawnSweeper hpos ttl before).run hkeep
    rw [List.append_assoc, List.singleton_append] at hpaced
    set events := before ++ .spawnSweeper interval :: after
    obtain ⟨entry', he', hopen⟩ :=
      isOpen_eq_true_iff.1 ((filed_run ttl events).cached_open key slot e hrow hready)
    obtain rfl : entry = entry' := Option.some.inj (he.symm.trans he')
    have hl : ((new ttl).run events).Lodged e entry := ⟨⟨key, slot, hrow, hready⟩, he, hopen⟩
    have httl : entry.ttl = ttl := (ttl_run ttl events).2 e entry he
    have hnext := hset.lt_nextTick ((Sound.new ttl).run _) hpaced.sweeper
    -- The sweeper has ticked, since its first tick was due by now.
    rcases hpaced.lodged with hle | hlodged
    · omega
    · obtain ⟨early, hearly, hlate', hv⟩ := hlodged e entry hl
      have hidle := hv.idle_lt
      exact ⟨by omega, early, hearly, Nat.lt_of_lt_of_le hnext hlate', hv.alive⟩
  · intro events pre key slot post e entry hrow hready he hbusy halive
    refine tick_spares ((Sound.new ttl).run events) (filed_run ttl events) hrow hready he
      ⟨?_, halive⟩
    rw [(sifts_past _ pre _).wanes.now, Entry.isIdle, (ttl_run ttl events).2 e entry he]
    exact decide_eq_false (Nat.not_le_of_lt hbusy)

/-- An entry that has been idle for its time to live is still there before the next tick, in bounds.
The tick before that spared it. -/
theorem overstay_bounded_between_ticks :
    let before := oneBuild ⟨"k"⟩ ++ [.clock 3]
    let after := [.clock 7, .tick, .call (.touch ⟨"k"⟩), .clock 11, .tick, .clock 15]
    let entry : Entry := ⟨⟨"k"⟩, ⟨0, .channel 0⟩, 0, 7, 10, false⟩
    InBounds 10 4 (before ++ .spawnSweeper 4 :: (after ++ [.tick, .clock 17])) entry ∧
      (⟨"k"⟩, 0) ∈ ((new 10).run (before ++ .spawnSweeper 4 :: after)).tick.current ∧
        ((new 10).run (before ++ .spawnSweeper 4 :: after)).tick.entries[0]? = some entry := by
  intro before after entry
  have h := overstay_bounded 10 before (after ++ [.tick, .clock 17]) 4 (by decide)
    (by simp [after, Event.StopsSweeper])
  exact ⟨h.1 ⟨by decide, by decide⟩ (by decide) ⟨"k"⟩ 0 0 entry (by decide) (by decide) (by decide),
    h.2 (before ++ .spawnSweeper 4 :: after) [] ⟨"k"⟩ 0 [] 0 entry (by decide) (by decide)
      (by decide) (by decide) (by decide)⟩

end Cache

end ConnectionBroker
