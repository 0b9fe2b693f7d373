import ConnectionBroker.Proofs.Cache.Faults

/-!
# One outcome for everybody who waited

While a key is built, other callers wait at its slot. When the factory call ends they are woken one
by one, and by then the key may be closed, evicted or under construction again. A caller that waits
does nothing, whatever happens around it (`bystander_step`), and a slot with an outcome is taken by
nobody any more (`kept_visitors`). So the error of a failed construction comes to those who were
there and to nobody else, and the late ones among them leave everything alone that was made since
(`wake_failed`); and a service is shared as long as its entry is still of use (`wake_ready`). Both
are said of any later time in `outcome_shared`.
-/

namespace ConnectionBroker

/-- The call waits for others, or has ended. -/
def Activity.Passive (a : Activity) : Prop :=
  a.waiting.isSome ∨ ∃ r, a = .ended r

namespace Cache

variable {id i b w : CallId} {op : Operation} {c c' c'' : Cache} {h h' : Hand} {key : Fingerprint}
  {slot : SlotId} {e : EntryId} {left : Nat} {err : BrokerError} {r : Resource} {call : Call}
  {ds : List Deed} {ev : Event} {o : Outcome}

/-! ## Bystanders -/

/-- What a call did, in order. -/
def deedsBy (c : Cache) (id : CallId) : List (CallId × Deed) :=
  c.journal.filter fun d => d.1 == id

theorem deedsBy_append (ds : List Deed) (hj : c'.journal = c.journal ++ ds.map (i, ·))
    (hw : w ≠ i) :
    c'.deedsBy w = c.deedsBy w := by
  simp [deedsBy, hj, Ne.symm hw]

/-- A call that stays where it is and does nothing. -/
structure Bystander (c c' : Cache) (w : CallId) : Prop where
  call : c'.calls[w]? = c.calls[w]?
  deeds : c'.deedsBy w = c.deedsBy w

namespace Bystander

theorem refl (c : Cache) (w : CallId) : c.Bystander c w :=
  ⟨rfl, rfl⟩

theorem trans (h : c.Bystander c' w) (h' : c'.Bystander c'' w) : c.Bystander c'' w :=
  ⟨h'.call.trans h.call, h'.deeds.trans h.deeds⟩

theorem activity? (h : c.Bystander c' w) : c'.activity? w = c.activity? w := by
  rw [Cache.activity?, h.call, Cache.activity?]

/-- Another call goes on for a stretch. -/
theorem of_moves (hm : Moves i op (c, h) (c', h')) (hw : w ≠ i) : c.Bystander c' w := by
  obtain ⟨hcalls, -, ds, -, hj⟩ := moves_frame hm
  exact ⟨by rw [show c'.calls = c.calls from hcalls], deedsBy_append ds hj hw⟩

theorem goes (hg : Goes Resumes c i c') (hw : w ≠ i) : c.Bystander c' w := by
  rcases hg with rfl | ⟨call, r, -, -, hp, rfl⟩
  · exact .refl _ w
  · refine (of_moves hp.moves hw).trans ⟨?_, rfl⟩
    simp [setActivity, Ne.symm hw]

/-- Another call is cancelled. -/
theorem abort (c : Cache) (hw : w ≠ i) : c.Bystander (c.abort i) w := by
  rcases c.abort_cases i with ⟨hself, -⟩ | ⟨call, hcall, hlive⟩
  · exact hself.symm ▸ .refl c w
  · have hj := journal_abort hcall hlive
    refine ⟨by simp [calls_abort hcall hlive, setActivity, Ne.symm hw], deedsBy_append
      ((call.activity.releasing?.toList ++ call.activity.claimed).map Deed.abandon) ?_ hw⟩
    rw [hj, List.map_map]
    rfl

/-- Stopping the sweeper is nothing to a call that it does not cancel. -/
theorem stopSweeper (c : Cache) (w : CallId) :
    c.Bystander c.stopSweeper w ∨ c.stopSweeper.result? w = some .aborted := by
  have hnone : c.Bystander { c with sweeper := none } w := ⟨rfl, rfl⟩
  rcases c.stopSweeper_cases with ⟨heq, -⟩ | ⟨s, id, -, -, heq⟩ <;> rw [heq]
  · exact .inl hnone
  · by_cases hw : w = id
    · subst hw
      rcases abort_eq_or_aborted { c with sweeper := none } w with hself | hresult
      · exact .inl (hself.symm ▸ hnone)
      · exact .inr hresult
    · exact .inl (hnone.trans (abort _ hw))

/-- Another call begins. -/
theorem call_other (hlt : w < c.calls.length) (op : Operation) :
    c.Bystander (c.call op).2 w ∨ (c.call op).2.result? w = some .aborted := by
  have begun : ∀ {c₁ : Cache}, c₁.calls.length = c.calls.length →
      Performs c.calls.length op (c₁, {}) (begin c.calls.length c op) →
      c₁.Bystander (c.call op).2 w := by
    intro c₁ hlen hp
    have hother := of_moves hp.moves (Nat.ne_of_lt hlt)
    have hcalls : (begin c.calls.length c op).2.calls = c₁.calls := (moves_frame hp.moves).1
    have hlt' : w < (begin c.calls.length c op).2.calls.length := by rwa [hcalls, hlen]
    exact hother.trans ⟨List.getElem?_append_left hlt', rfl⟩
  by_cases hop : op = .shutdown
  · subst hop
    have hbegun := begun (length_calls_stopSweeper c) (performs_shutdown _ _)
    refine (stopSweeper c w).imp (fun h => h.trans hbegun) fun h => ?_
    rw [result?, hbegun.activity?, ← result?]
    exact h
  · exact .inl (begun rfl (performs_begin _ op hop c))

end Bystander

/-- A call that waits or has ended does nothing until it is woken or cancelled. -/
theorem bystander_step (hc : c.Sound) (hcall : c.calls[w]? = some call)
    (hpassive : call.activity.Passive) (hev : ev = .wake w → ∃ r, call.activity = .ended r) :
    c.Bystander (c.step ev) w ∨ (c.step ev).result? w = some .aborted := by
  have hlt : w < c.calls.length := (List.getElem?_eq_some_iff.1 hcall).1
  have ha : c.activity? w = some call.activity := activity?_eq_some_iff.2 ⟨call, hcall, rfl⟩
  have self : ∀ {c' : Cache}, c' = c → c.Bystander c' w := fun heq => heq ▸ .refl c w
  cases ev with
  | call op => exact Bystander.call_other hlt op
  | serviceClosed i =>
    refine .inl ?_
    by_cases hw : w = i
    · subst hw
      refine self ?_
      have hstill : afterClose w c call.activity = (call.activity, c) := by
        rcases hpassive with hwait | ⟨r, hr⟩
        · unfold Activity.waiting at hwait
          split at hwait
          · rename_i hact
            rw [hact]
            rfl
          · cases hwait
        · rw [hr]
          rfl
      simp [step, serviceClosed, ha, hstill, setActivity_self ha]
    · exact .goes (goes_serviceClosed hc.attuned i).resumes hw
  | built i o =>
    refine .inl ?_
    by_cases hw : w = i
    · subst hw
      refine self ?_
      rw [step, built.eq_def]
      split
      · rename_i key left slot hact
        rw [Option.some.inj (ha.symm.trans hact)] at hpassive
        rcases hpassive with hwait | ⟨r, hr⟩
        · cases hwait
        · cases hr
      · rfl
    · exact .goes (goes_built hc i o) hw
  | wake i =>
    refine .inl ?_
    by_cases hw : w = i
    · subst hw
      obtain ⟨r, hr⟩ := hev rfl
      exact self (by simp [step, wake, ha, hr])
    · exact .goes (goes_wake hc.attuned i).resumes hw
  | abort i =>
    by_cases hw : w = i
    · subst hw
      exact (c.abort_eq_or_aborted w).imp_left self
    · exact .inl (.abort c hw)
  | spawnSweeper interval =>
    rw [step, spawnSweeper]
    split
    · exact Bystander.stopSweeper c w
    · exact (Bystander.stopSweeper c w).imp_left fun h => h.trans ⟨rfl, rfl⟩
  | tick =>
    rw [step, tick]
    split
    · split
      · exact (Bystander.call_other hlt .sweep).imp_left fun h => h.trans ⟨rfl, rfl⟩
      · exact .inl (.refl c w)
    · exact .inl (.refl c w)
  | clock | sever | forward | world => exact .inl ⟨rfl, rfl⟩
  | reorder rows =>
    rw [step, reorder]
    split
    · exact .inl ⟨rfl, rfl⟩
    · exact .inl (.refl c w)

/-! ## Slots that have an outcome -/

/-- Nobody comes to a slot that has an outcome. -/
theorem kept_visitors (P : Call → Prop) (slot : SlotId) (o : Outcome) (W : CallId → Prop) :
    Kept P fun c H => (Guarded c H ∧ c.outcome? slot = some o) ∧
      ∀ id key, (H id).waiting = some (key, slot) → W id where
  move {id op c c' h h' H} hm := by
    rintro ⟨hslot, hwaiting⟩
    refine ⟨(kept_outcome P slot o).move hm hslot, fun i k hi => ?_⟩
    refine hwaiting i k (update_imp (P := fun h => h.waiting = some (k, slot)) (fun hw => ?_) hi)
    cases hm with
    | @queue _ _ key s hcur hb ho =>
      obtain ⟨rfl, rfl⟩ : key = k ∧ s = slot := by simpa using hw
      rw [ho] at hslot
      cases hslot.2
    | promote | leave => cases hw
    | _ => exact hw
  cancel {c id call} hcall hfit hP := by
    rintro ⟨hslot, hwaiting⟩
    refine ⟨(kept_outcome P slot o).cancel hcall hfit hP hslot, fun i k hi => hwaiting i k ?_⟩
    by_cases hne : i = id
    · subst hne
      simp at hi
    · rwa [Function.update_of_ne hne] at hi
  frame hrows hslots hentries hj h :=
    ⟨(kept_outcome P slot o).frame hrows hslots hentries hj h.1, h.2⟩

theorem waiting_of_activity (ha : c.activity? w = some (.getting key left (.waiting slot))) :
    (c.hands w).waiting = some (key, slot) := by
  obtain ⟨call, hcall, hact⟩ := activity?_eq_some_iff.1 ha
  rw [hands_of_call hcall, hact]
  rfl

theorem activity_of_waiting (hw : (c.hands w).waiting = some (key, slot)) :
    ∃ left, c.activity? w = some (.getting key left (.waiting slot)) := by
  cases ha : c.activity? w with
  | none => simp [hands, ha] at hw
  | some a =>
    replace hw : a.waiting = some (key, slot) := by
      rwa [hands, ha] at hw
    unfold Activity.waiting at hw
    split at hw
    · obtain ⟨rfl, rfl⟩ := Prod.mk.inj (Option.some.inj hw)
      exact ⟨_, rfl⟩
    · cases hw

/-- Whoever is at a slot that has an outcome was waiting there already when it got it. -/
theorem visitor_run (hc : c.Sound) (ho : c.outcome? slot = some o) (events : List Event)
    (h : ((c.run events).activity? w).bind Activity.slot? = some slot) :
    ∃ key, (c.hands w).waiting = some (key, slot) := by
  have hkept := (kept_visitors (fun _ => True) slot o fun w =>
    ∃ key, (c.hands w).waiting = some (key, slot)).strides (strides_run_any hc events)
      ⟨⟨hc.guarded, ho⟩, fun id key hw => ⟨key, hw⟩⟩
  obtain ⟨⟨hg, ho'⟩, hwaiting⟩ := hkept
  obtain ⟨a, ha, hslot⟩ := Option.bind_eq_some_iff.1 h
  obtain ⟨call, hcall, rfl⟩ := activity?_eq_some_iff.1 ha
  unfold Activity.slot? at hslot
  split at hslot
  · rename_i key left s hact
    obtain rfl := Option.some.inj hslot
    have hb : ((c.run events).hands w).building = some (key, s) := by
      rw [hands_of_call hcall, hact]
      rfl
    rw [(hg.building w key s hb).2.2] at ho'
    cases ho'
  · rename_i key left s hact
    obtain rfl := Option.some.inj hslot
    exact hwaiting w key (by rw [hands_of_call hcall, hact]; rfl)
  · cases hslot

/-! ## Waking up -/

/-- A caller that wakes up after a failure returns the error and changes nothing, whatever has
become of the key. -/
theorem wake_failed (ha : c.activity? w = some (.getting key left (.waiting slot)))
    (ho : c.outcome? slot = some (.failed err)) (hout : c.isCurrent key slot = false) :
    c.step (.wake w) = c.setActivity w (.ended (.failed err)) := by
  simp [step, wake, ha, ho, observe, forget_of_not_isCurrent hout]

/-- A caller that wakes up while the entry is under its key and not stale returns its service, and
does nothing else. -/
theorem wake_ready {entry : Entry} (ha : c.activity? w = some (.getting key left (.waiting slot)))
    (ho : c.outcome? slot = some (.ready e)) (hcur : c.isCurrent key slot = true)
    (he : c.entries[e]? = some entry) (hopen : entry.closed = false)
    (hfresh : entry.isStale c.net.now (c.checkEntry entry).1 = false) :
    c.step (.wake w) =
      ((c.checkEntry entry).2.setEntry e { entry with lastUse := c.net.now }).setActivity w
        (.ended (.service entry.resource.service)) := by
  have haccess : c.access w e =
      (.touched, (c.checkEntry entry).2.setEntry e { entry with lastUse := c.net.now }) := by
    rcases c.access_cases w e with ⟨entry', he', -, hfresh', heq⟩ | ⟨entry', he', -, hstale, -⟩ |
      ⟨hclosed, -⟩
    · obtain rfl := Option.some.inj (he.symm.trans he')
      exact heq
    · obtain rfl := Option.some.inj (he.symm.trans he')
      rw [hfresh] at hstale
      cases hstale
    · rw [isOpen_eq_true_iff.2 ⟨entry, he, hopen⟩] at hclosed
      cases hclosed
  have hused := entries_setEntry_self (c := (c.checkEntry entry).2) (i := e)
    (by rw [checkEntry_entries, he]) { entry with lastUse := c.net.now }
  simp [step, wake, ha, ho, observe, hcur, use, haccess, hused]

/-! ## After a failure -/

theorem isCurrent_eq_false (hout : (key, slot) ∉ c.current) : c.isCurrent key slot = false :=
  Bool.eq_false_iff.2 fun hcur => hout (mem_of_isCurrent hcur)

/-- Results are final, so a call that is not cancelled in the end is not cancelled on the way. -/
theorem not_aborted_step (hc : c.Sound) {rest : List Event}
    (h : (c.run (ev :: rest)).result? w ≠ some .aborted) : (c.step ev).result? w ≠ some .aborted :=
  fun hr => h ((strides_run_any (hc.run [ev]) rest).result? hr)

/-- A call that has ended does nothing any more. -/
theorem deedsBy_run {x : Result} (hc : c.Sound) (hx : c.result? w = some x) (events : List Event)
    (hnone : (c.run events).result? w ≠ some .aborted) :
    (c.run events).deedsBy w = c.deedsBy w := by
  induction events generalizing c with
  | nil => rfl
  | cons ev rest ih =>
    obtain ⟨call, hcall, hend⟩ := result?_eq_some_iff.1 hx
    have hstep := (bystander_step hc hcall (.inr ⟨x, hend⟩) fun _ => ⟨x, hend⟩).resolve_right
      (not_aborted_step hc hnone)
    exact (ih (hc.run [ev]) ((strides_run_any hc [ev]).result? hx) hnone).trans hstep.deeds

/-- A caller that waits at a slot with an error outside the map does nothing but return the
error, if it is not cancelled. -/
theorem waiter_run (hc : c.Sound) (ho : c.outcome? slot = some (.failed err))
    (hout : (key, slot) ∉ c.current)
    (ha : c.activity? w = some (.getting key left (.waiting slot))) (events : List Event)
    (hnone : (c.run events).result? w ≠ some .aborted) :
    (c.run events).deedsBy w = c.deedsBy w ∧
      ((c.run events).result? w = some (.failed err) ∨
        (c.run events).activity? w = some (.getting key left (.waiting slot))) := by
  induction events generalizing c with
  | nil => exact ⟨rfl, .inr ha⟩
  | cons ev rest ih =>
    have hc' : (c.step ev).Sound := hc.run [ev]
    obtain ⟨call, hcall, hact⟩ := activity?_eq_some_iff.1 ha
    by_cases hev : ev = .wake w
    · subst hev
      have hwake := wake_failed ha ho (isCurrent_eq_false hout)
      have hfailed : (c.step (.wake w)).result? w = some (.failed err) := by
        rw [hwake]
        exact result?_eq_some_iff.2 ⟨{ call with activity := .ended (.failed err) },
          by simp [setActivity, hcall], rfl⟩
      have hdeeds := deedsBy_run hc' hfailed rest hnone
      refine ⟨hdeeds.trans ?_, .inl ((strides_run_any hc' rest).result? hfailed)⟩
      rw [hwake]
      rfl
    · have hstep := (bystander_step hc hcall (.inl (by rw [hact]; rfl)) (absurd · hev)).resolve_right
        (not_aborted_step hc hnone)
      have hstrides := strides_run_any hc [ev]
      have ho' := ((kept_outcome _ slot _).strides hstrides ⟨hc.guarded, ho⟩).2
      have hout' := hstrides.renews.not_mem (lt_of_outcome? ho) hout
      obtain ⟨hdeeds, hend⟩ := ih hc' ho' hout' (hstep.activity?.trans ha) hnone
      exact ⟨hdeeds.trans hstep.deeds, hend⟩

/-- What a failed factory call comes to for everybody. In `c₂` the call `b` was building in the
slot; there its factory call fails, and `c` is any time after that. -/
structure FailureShared (c₂ c : Cache) (b : CallId) (key : Fingerprint) (slot : SlotId)
    (err : BrokerError) : Prop where
  /-- The builder returns the error. -/
  builder : c.result? b = some (.failed err)
  /-- Whoever waited has done nothing since and has returned the error, or will when it is woken,
  and that changes nothing but the call itself. -/
  waiters : ∀ w key' left, c₂.activity? w = some (.getting key' left (.waiting slot)) →
    key' = key ∧ c.deedsBy w = c₂.deedsBy w ∧
      (c.result? w = some (.failed err) ∨
        c.activity? w = some (.getting key left (.waiting slot)) ∧
          c.step (.wake w) = c.setActivity w (.ended (.failed err)))
  /-- When every call has ended, everybody who waited has returned the error. -/
  at_rest : c.AtRest → ∀ w left, c₂.activity? w = some (.getting key left (.waiting slot)) →
    c.result? w = some (.failed err)
  /-- Nobody else is ever at the slot, and the errors of the others are those of giving up or of
  factory calls for other slots. -/
  others : ∀ id, id ≠ b →
    (∀ key' left, c₂.activity? id ≠ some (.getting key' left (.waiting slot))) →
      (c.activity? id).bind Activity.slot? ≠ some slot ∧
        ∀ ev err', c.result? id ≠ some (.failed err') →
          (c.step ev).result? id = some (.failed err') →
            (∃ key', err' = deadKey key') ∨ ∃ slot' ≠ slot,
              (c.activity? id).bind Activity.slot? = some slot' ∧
                (c.step ev).outcome? slot' = some (.failed err')
  /-- The builder takes out the slot where it has failed, and leaves every other row, every other
  slot and every entry alone. -/
  cleared : (∀ row, row ∈ (c₂.step (.built b (.failed err))).current ↔
      row ∈ c₂.current ∧ row ≠ (key, slot)) ∧
    (c₂.step (.built b (.failed err))).entries = c₂.entries ∧
      ∀ s ≠ slot, (c₂.step (.built b (.failed err))).slots[s]? = c₂.slots[s]?

/-- The step in which a factory call fails. -/
theorem step_failed (err : BrokerError)
    (ha : c.activity? b = some (.getting key left (.building slot))) :
    c.step (.built b (.failed err)) =
      ((c.conclude slot (.failed err)).forget b key slot).setActivity b (.ended (.failed err)) := by
  simp [step, built, ha, observe]

theorem outcome_step_failed (err : BrokerError)
    (ha : c.activity? b = some (.getting key left (.building slot))) (hlt : slot < c.slots.length) :
    (c.step (.built b (.failed err))).outcome? slot = some (.failed err) := by
  have hslots :
      (c.step (.built b (.failed err))).slots = (c.conclude slot (.failed err)).slots := by
    rw [step_failed err ha]
    exact slots_forget _ b key slot
  rw [outcome?, hslots]
  exact outcome?_conclude_self hlt

/-- After a failed factory call everything goes as it should, whatever happens. -/
theorem failureShared (hc : c.Sound) (hf : c.Faultless) (hb : c.Builds b key slot)
    (err : BrokerError) (after : List Event)
    (hnone : ∀ id, ((c.step (.built b (.failed err))).run after).result? id ≠ some .aborted) :
    FailureShared c ((c.step (.built b (.failed err))).run after) b key slot err := by
  obtain ⟨hkey, -, -⟩ := hc.guarded.building b key slot hb.building
  obtain ⟨left, ha⟩ := hb
  have hlt := lt_of_slotKey? hkey
  have hstep := step_failed err ha
  have ho := outcome_step_failed err ha hlt
  have hc₃ : (c.step (.built b (.failed err))).Sound := hc.run [.built b (.failed err)]
  have hf₃ : (c.step (.built b (.failed err))).Faultless := hf.step hc _
  have hout : (key, slot) ∉ (c.step (.built b (.failed err))).current := fun hmem =>
    hf₃ _ hmem err ho
  obtain ⟨builder, hbuilder, hbuilding⟩ := activity?_eq_some_iff.1 ha
  -- The others are where they were.
  have hothers : ∀ id, id ≠ b → c.Bystander (c.step (.built b (.failed err))) id :=
    fun id hid => .goes (goes_built hc b (.failed err)) hid
  have hwaiting : ∀ w key' left', c.activity? w = some (.getting key' left' (.waiting slot)) →
      w ≠ b ∧ key' = key := by
    intro w key' left' hw
    refine ⟨?_, ?_⟩
    · rintro rfl
      rw [ha] at hw
      cases hw
    · have hkey' := hc.guarded.waiting w key' slot (waiting_of_activity hw)
      exact Option.some.inj (hkey'.symm.trans hkey)
  have hlater := strides_run_any hc₃ after
  have hwaiters : ∀ w left', c.activity? w = some (.getting key left' (.waiting slot)) → w ≠ b →
      ((c.step (.built b (.failed err))).run after).deedsBy w = c.deedsBy w ∧
        (((c.step (.built b (.failed err))).run after).result? w = some (.failed err) ∨
          ((c.step (.built b (.failed err))).run after).activity? w =
            some (.getting key left' (.waiting slot))) := fun w left' hw hne => by
    have hbystander := hothers w hne
    obtain ⟨hdeeds, hend⟩ := waiter_run hc₃ ho hout (hbystander.activity?.trans hw) after (hnone w)
    exact ⟨hdeeds.trans hbystander.deeds, hend⟩
  have ho' := ((kept_outcome _ slot _).strides hlater ⟨hc₃.guarded, ho⟩).2
  have hout' := hlater.renews.not_mem (lt_of_outcome? ho) hout
  refine ⟨hlater.result? ?_, fun w key' left' hw => ?_, fun hrest w left' hw => ?_,
    fun id hid hnot => ?_, ?_, ?_, fun s hs => ?_⟩
  · rw [hstep]
    refine result?_eq_some_iff.2 ⟨{ builder with activity := .ended (.failed err) }, ?_, rfl⟩
    have hcalls : ((c.conclude slot (.failed err)).forget b key slot).calls = c.calls :=
      calls_forget _ b key slot
    simp [setActivity, hcalls, hbuilder]
  · obtain ⟨hne, rfl⟩ := hwaiting w key' left' hw
    obtain ⟨hdeeds, hend⟩ := hwaiters w left' hw hne
    exact ⟨rfl, hdeeds, hend.imp_right fun hstill =>
      ⟨hstill, wake_failed hstill ho' (isCurrent_eq_false hout')⟩⟩
  · refine (hwaiters w left' hw (hwaiting w key left' hw).1).2.resolve_right fun hstill => ?_
    have hwait := waiting_of_activity hstill
    rw [hrest.hands w] at hwait
    cases hwait
  · have hnever : (((c.step (.built b (.failed err))).run after).activity? id).bind
        Activity.slot? ≠ some slot := fun hat => by
      obtain ⟨key', hw⟩ := visitor_run hc₃ ho after hat
      obtain ⟨left', hw⟩ := activity_of_waiting hw
      exact hnot key' left' ((hothers id hid).activity?.symm.trans hw)
    refine ⟨hnever, fun ev err' hnew herr => ?_⟩
    refine (blame_of_step (hc₃.run after) (hf₃.run hc₃ after) hnew herr).imp_right ?_
    rintro ⟨slot', hat, hblame⟩
    refine ⟨slot', ?_, hat, hblame⟩
    rintro rfl
    exact hnever hat
  · intro row
    rw [hstep]
    exact mem_current_forget (c := c.conclude slot (.failed err)) hc.guarded.keys
  · rw [hstep]
    exact entries_forget _ b key slot
  · rw [hstep]
    have hslots : (((c.conclude slot (.failed err)).forget b key slot).setActivity b
        (.ended (.failed err))).slots = (c.conclude slot (.failed err)).slots :=
      slots_forget _ b key slot
    rw [hslots, conclude, slots_updateSlot, if_neg hs.symm]

/-! ## After a success -/

/-- What a factory call that ends with a resource comes to for those who wait. It becomes an entry
of `c₂`, the next one, and `c` is any time after that. -/
structure ServiceShared (c₂ c : Cache) (key : Fingerprint) (slot : SlotId) (r : Resource) :
    Prop where
  /-- The slot holds the entry that was built. -/
  entry : c.outcome? slot = some (.ready c₂.entries.length) ∧
    ∃ entry, c.entries[c₂.entries.length]? = some entry ∧ entry.key = key ∧ entry.resource = r
  /-- Whoever wakes up while the slot is the key's and the entry is not stale returns the service,
  and does nothing else. -/
  waiters : ∀ w key' left entry, c.activity? w = some (.getting key' left (.waiting slot)) →
    c.isCurrent key slot = true → c.entries[c₂.entries.length]? = some entry →
      entry.isStale c.net.now (c.checkEntry entry).1 = false →
        (c.step (.wake w)).result? w = some (.service r.service) ∧
          (c.step (.wake w)).deedsBy w = c.deedsBy w

/-- The step in which a factory call ends with a resource. -/
theorem settled (hc : c.Sound) (hb : c.Builds b key slot) (r : Resource) :
    (c.step (.built b (.resource r))).outcome? slot = some (.ready c.entries.length) ∧
      ∃ entry, (c.step (.built b (.resource r))).entries[c.entries.length]? = some entry ∧
        entry.key = key ∧ entry.resource = r := by
  obtain ⟨hkey, -, -⟩ := hc.guarded.building b key slot hb.building
  have hbuilding := hb.building
  obtain ⟨left, ha⟩ := hb
  have hlt := lt_of_slotKey? hkey
  obtain ⟨c₁, hc₁⟩ : ∃ c₁ : Cache, c₁ = { c with
    entries := c.entries ++ [Entry.fresh key r c.net.now c.ttl] }.conclude slot
      (.ready c.entries.length) := ⟨_, rfl⟩
  have ho : c₁.outcome? slot = some (.ready c.entries.length) := by
    rw [hc₁]
    exact outcome?_conclude_self hlt
  have hstep : c.step (.built b (.resource r)) =
      (c₁.observe b key slot true left (.ready c.entries.length)).2.setActivity b
        (c₁.observe b key slot true left (.ready c.entries.length)).1 := by
    simp [step, built, ha, hc₁]
  have hp := (@performs_concluded b _ key slot left _ ho).moves
  -- The end of the factory call is the first move of the stretch.
  have hhand : c.hands b = (Activity.getting key left (.building slot)).hand := by
    simp [hands, ha]
  have hsettle := @Move.settle b (.get key) c _ key slot r hbuilding
  rw [hhand, ← hc₁, show c.outside key slot = c₁.outside key slot by rw [hc₁]; rfl] at hsettle
  have hself : Function.update c.hands b (Activity.getting key left (.building slot)).hand =
      c.hands := by rw [← hhand, Function.update_eq_self]
  have hg := Guarded.move (by rw [hself]; exact hc.guarded) hsettle
  have hadded : c₁.entries[c.entries.length]? = some (Entry.fresh key r c.net.now c.ttl) := by
    rw [hc₁]
    exact List.getElem?_concat_length
  obtain ⟨entry, he, hage⟩ := (Ages.moves hp).old _ _ hadded
  rw [hstep]
  refine ⟨((kept_outcome (fun _ => True) slot _).moves hp ⟨hg, ho⟩).2, entry, he, hage.key,
    hage.resource⟩

/-- After a factory call that ends with a resource everything goes as it should, whatever
happens. -/
theorem serviceShared (hc : c.Sound) (hb : c.Builds b key slot) (r : Resource)
    (after : List Event)
    (hv : Custody ((c.step (.built b (.resource r))).run after)
      ((c.step (.built b (.resource r))).run after).hands) :
    ServiceShared c ((c.step (.built b (.resource r))).run after) key slot r := by
  obtain ⟨ho, entry, he, hekey, heres⟩ := settled hc hb r
  have hc₃ : (c.step (.built b (.resource r))).Sound := hc.run [.built b (.resource r)]
  have hlater := strides_run_any hc₃ after
  have hguarded := (hc₃.run after).guarded
  have ho' := ((kept_outcome _ slot _).strides hlater ⟨hc₃.guarded, ho⟩).2
  obtain ⟨entry', he', hage⟩ := hlater.ages.old _ entry he
  generalize (c.step (.built b (.resource r))).run after = c₄ at *
  refine ⟨⟨ho', entry', he', hage.key.trans hekey, hage.resource.trans heres⟩, ?_⟩
  intro w key' left entry'' ha hcur hentry hfresh
  obtain rfl := Option.some.inj (he'.symm.trans hentry)
  have hrow := mem_of_isCurrent hcur
  obtain rfl : key = key' := Option.some.inj ((hguarded.row_key key slot hrow).symm.trans
    (hguarded.waiting w key' slot (waiting_of_activity ha)))
  have hopen : entry'.closed = false := by
    obtain ⟨entry'', hentry', hopen⟩ := isOpen_eq_true_iff.1
      (hv.cached_open key slot _ hrow (ready?_eq_some_iff.2 ho'))
    obtain rfl := Option.some.inj (he'.symm.trans hentry')
    exact hopen
  obtain ⟨net, hnet, -⟩ := c₄.checkEntry_eq entry'
  obtain ⟨call, hcall, -⟩ := activity?_eq_some_iff.1 ha
  rw [wake_ready ha ho' hcur he' hopen hfresh, hnet, hage.resource, heres]
  refine ⟨result?_eq_some_iff.2 ⟨{ call with activity := .ended (.service r.service) }, ?_, rfl⟩,
    rfl⟩
  simp [setActivity, setEntry, hcall]

/-! ## One outcome -/

/-- In every run no slot of the map ever holds an error. In every run in which no call is cancelled,
whenever a factory call ends, its error is returned by everybody who waited and by nobody else, and
its service by everybody who wakes up while its entry is of use. -/
theorem outcome_shared (ttl : Nat) (before after : List Event) (b : CallId) (key : Fingerprint)
    (slot : SlotId) (o : Built) (hb : ((new ttl).run before).Builds b key slot)
    (hnone : ∀ id,
      ((new ttl).run (before ++ .built b o :: after)).result? id ≠ some .aborted) :
    (∀ events, ((new ttl).run events).Faultless) ∧
      (∀ err, o = .failed err → FailureShared ((new ttl).run before)
        ((new ttl).run (before ++ .built b o :: after)) b key slot err) ∧
        ∀ r, o = .resource r → ServiceShared ((new ttl).run before)
          ((new ttl).run (before ++ .built b o :: after)) key slot r := by
  have hfaultless : ∀ events, ((new ttl).run events).Faultless :=
    Faultless.run (.new ttl) (by simp [Faultless, Cache.new])
  have hc : ((new ttl).run before).Sound := (Sound.new ttl).run before
  have hv := custody_run ttl (spared_of_no_aborted (.new ttl) hnone)
  rw [run_append] at hnone hv ⊢
  refine ⟨hfaultless, ?_, ?_⟩
  · rintro err rfl
    exact failureShared hc (hfaultless before) hb err after hnone
  · rintro r rfl
    exact serviceShared hc hb r after hv

/-- Two callers race for a key. -/
def racingCallers : List Event :=
  [.call (.get ⟨"k"⟩), .call (.get ⟨"k"⟩)]

/-- A third caller comes after the construction has failed, and the second wakes up late. -/
def lateWaiter : List Event :=
  racingCallers ++ .built 0 (.failed (.transport "refused")) :: [.call (.get ⟨"k"⟩), .wake 1]

/-- Both callers return the error, and the third one builds on. -/
theorem outcome_shared_by_late_waiter :
    FailureShared ((new 1000).run racingCallers) ((new 1000).run lateWaiter) 0 ⟨"k"⟩ 0
      (.transport "refused") := by
  refine (outcome_shared 1000 racingCallers [.call (.get ⟨"k"⟩), .wake 1] 0 ⟨"k"⟩ 0
    (.failed (.transport "refused")) ⟨3, by decide⟩ (result?_ne_iff.2 ?_)).2.1 _ rfl
  show ∀ call ∈ ((new 1000).run lateWaiter).calls, call.activity ≠ .ended .aborted
  decide

end Cache

end ConnectionBroker
