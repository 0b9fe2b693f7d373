import ConnectionBroker.Proofs.Cache.Outside
import ConnectionBroker.Proofs.Cache.Serving
import ConnectionBroker.Proofs.Cache.SingleFlight

/-!
# Where errors come from

A factory call that fails leaves its error in the slot, and the builder takes the slot out of the
map in the same stretch. So between two steps no slot of the map holds an error (`Faultless.step`),
and nobody who takes a slot of the map meets one there. The error of a factory call is returned by
those who were at its slot when it failed, the builder and the callers that waited; every other
error is the one of a call that gives up on its key (`blame_of_step`).
-/

namespace ConnectionBroker

/-- The error that a call has ended with. -/
def Activity.error? : Activity → Option BrokerError
  | .ended (.failed err) => some err
  | _ => none

namespace Cache

variable {id i : CallId} {op : Operation} {c c' : Cache} {h h' : Hand} {key : Fingerprint}
  {slot : SlotId} {e : EntryId} {left : Nat} {err : BrokerError} {r : Activity × Cache} {ev : Event}

/-! ## Errors do not stay in the map -/

/-- No slot of the map holds an error. -/
def Faultless (c : Cache) : Prop :=
  ∀ row ∈ c.current, ∀ err, c.outcome? row.2 ≠ some (.failed err)

/-- Where no key has two rows, forgetting a slot takes out its row and no other. -/
theorem mem_current_forget (hkeys : (c.current.map Prod.fst).Nodup) {row : Fingerprint × SlotId} :
    row ∈ (c.forget id key slot).current ↔ row ∈ c.current ∧ row ≠ (key, slot) := by
  cases hcur : c.isCurrent key slot with
  | true =>
    obtain ⟨pre, post, hrow, hforget⟩ := forget_of_isCurrent id hcur
    have hnot := not_mem_of_split hkeys hrow slot
    rw [hforget, mem_split_iff hrow]
    constructor
    · exact fun h => ⟨.inr h, ne_of_mem_of_not_mem h hnot⟩
    · exact fun h => h.1.resolve_left h.2
  | false =>
    rw [forget_of_not_isCurrent hcur]
    refine ⟨fun h => ⟨h, ?_⟩, And.left⟩
    rintro rfl
    rw [isCurrent, lookup_of_mem hkeys h] at hcur
    simp at hcur

namespace Faultless

theorem of_rows (hf : c.Faultless) (hrows : ∀ row ∈ c'.current, row ∈ c.current)
    (hout : ∀ s, c'.outcome? s = c.outcome? s) : c'.Faultless := by
  intro row hrow err
  rw [hout]
  exact hf row (hrows row hrow) err

theorem of_same (hf : c.Faultless) (hcur : c'.current = c.current) (hslots : c'.slots = c.slots) :
    c'.Faultless :=
  hf.of_rows (fun _ hrow => hcur ▸ hrow) fun s => by rw [outcome?, hslots, outcome?]

theorem forget (hf : c.Faultless) (id : CallId) (key : Fingerprint) (slot : SlotId) :
    (c.forget id key slot).Faultless := by
  cases hcur : c.isCurrent key slot with
  | true =>
    obtain ⟨pre, post, hrow, hforget⟩ := forget_of_isCurrent id hcur
    rw [hforget]
    exact hf.of_rows (fun row hmem => (mem_split_iff hrow).2 (.inr hmem)) fun _ => rfl
  | false => rwa [forget_of_not_isCurrent hcur]

/-- A call that has no factory call in progress leaves no error behind. -/
theorem move (hf : c.Faultless) (hb : h.building = none) (hm : Move id op (c, h) (c', h')) :
    c'.Faultless := by
  have split : ∀ {pre post : List (Fingerprint × SlotId)} {key : Fingerprint} {slot : SlotId},
      c.current = pre ++ (key, slot) :: post → c'.current = pre ++ post →
      c'.slots = c.slots → c'.Faultless := by
    intro pre post key slot hrow hcur hslots
    exact hf.of_rows (fun row hmem => (mem_split_iff hrow).2 (.inr (hcur ▸ hmem)))
      fun s => by rw [outcome?, hslots, outcome?]
  cases hm with
  | round | claim | skip | promote | leave => exact hf.of_same rfl rfl
  | keep | touch => exact hf.of_same (checkEntry_rows c _) (checkEntry_slots c _)
  | evict hrow => exact split hrow rfl (checkEntry_slots c _)
  | forget hrow | withdraw hrow => exact split hrow rfl rfl
  | @tell _ _ e rest hr hc =>
    obtain ⟨net, hnet⟩ := c.beginRelease_eq id e
    rw [hnet]
    exact hf.of_same rfl rfl
  | @finish _ _ e hr =>
    obtain ⟨net, hnet⟩ := c.endRelease_eq id e
    rw [hnet]
    exact hf.of_same rfl rfl
  | @place _ _ key hnone =>
    intro row hrow err
    rw [outcome?_slotFor hnone]
    rw [slotFor_of_none hnone] at hrow
    rcases List.mem_append.1 hrow with hrow | hrow
    · exact hf row hrow err
    · obtain rfl := List.mem_singleton.1 hrow
      simp [outcome?]
  | build => exact hf.of_rows (fun _ hrow => hrow) outcome?_setBuilder
  | queue => exact hf.of_rows (fun _ hrow => hrow) (outcome?_updateSlot fun _ => rfl)
  | settle r hb' | fail err hb' | panic hb' =>
    rw [hb] at hb'
    cases hb'

theorem walk {s s' : Cache × Hand} (hf : s.1.Faultless) (hw : Walk id op s s') :
    s'.1.Faultless := by
  induction hw with
  | refl => exact hf
  | tail _ hm ih => exact ih.move hm.1 hm.2

theorem performs (hf : c.Faultless) (hp : Performs id op (c, h) r) : r.2.Faultless :=
  hf.walk hp.walk

theorem goes (hf : c.Faultless) (hg : Goes Performs c id c') : c'.Faultless := by
  rcases hg with rfl | ⟨call, r, -, -, hp, rfl⟩
  · exact hf
  · exact (hf.performs hp).of_same rfl rfl

/-- An entry in a slot is no error. -/
theorem conclude_ready (hf : c.Faultless) (hlt : slot < c.slots.length) (e : EntryId) :
    (c.conclude slot (.ready e)).Faultless := by
  intro row hrow err
  by_cases hslot : slot = row.2
  · rw [← hslot, outcome?_conclude_self hlt]
    simp
  · have hout : (c.conclude slot (.ready e)).outcome? row.2 = c.outcome? row.2 :=
      outcome?_updateSlot_of_ne _ hslot
    rw [hout]
    exact hf row hrow err

/-- A slot with an error goes when it is forgotten. -/
theorem forget_failed {H : CallId → Hand} (hf : c.Faultless) (hg : Guarded c H)
    (hkey : c.slotKey? slot = some key) (id : CallId) (err : BrokerError) :
    ((c.conclude slot (.failed err)).forget id key slot).Faultless := by
  intro row hrow err'
  have hkeys : ((c.conclude slot (.failed err)).current.map Prod.fst).Nodup := hg.keys
  obtain ⟨hmem, hne⟩ := (mem_current_forget hkeys).1 hrow
  have hslot : slot ≠ row.2 := by
    rintro rfl
    have hrow_key := hg.row_key row.1 row.2 hmem
    exact hne (Prod.ext (Option.some.inj (hrow_key.symm.trans hkey)) rfl)
  have hout : (c.conclude slot (.failed err)).outcome? row.2 = c.outcome? row.2 :=
    outcome?_updateSlot_of_ne _ hslot
  rw [outcome?, slots_forget, ← outcome?, hout]
  exact hf row hmem err'

/-- The slot of a factory call that fails is in no row once its builder is done. -/
theorem built (hc : c.Sound) (hf : c.Faultless) (id : CallId) (b : Built) :
    (c.built id b).Faultless := by
  unfold Cache.built
  split
  · rename_i key left slot ha
    obtain ⟨hkey, -, -⟩ := hc.guarded.building id key slot (Builds.building ⟨left, ha⟩)
    have hlt := lt_of_slotKey? hkey
    cases b with
    | panicked => exact hf.of_rows (fun _ hrow => hrow) (outcome?_updateSlot fun _ => rfl)
    | failed err => exact (hf.forget_failed hc.guarded hkey id err).of_same rfl rfl
    | resource r =>
      have hadded : ({ c with entries := c.entries ++ [Entry.fresh key r c.net.now c.ttl] } :
          Cache).Faultless := hf
      have hready := hadded.conclude_ready hlt c.entries.length
      have hp := @performs_concluded id _ key slot left _
        (outcome?_conclude_self (o := .ready c.entries.length) (c := { c with
          entries := c.entries ++ [Entry.fresh key r c.net.now c.ttl] }) hlt)
      exact (hready.performs hp).of_same rfl rfl
  · exact hf

theorem abort (hf : c.Faultless) (id : CallId) : (c.abort id).Faultless := by
  rcases c.abort_cases id with ⟨hself, -⟩ | ⟨call, hcall, hlive⟩
  · rwa [hself]
  · obtain ⟨-, -, hout⟩ := letGo_views id c call.activity
    obtain ⟨slots, hlet⟩ := letGo_eq id c call.activity
    rw [abort_of_call hcall hlive]
    rw [hlet] at hout ⊢
    exact hf.of_rows (fun _ hrow => hrow) hout

theorem stopSweeper (hf : c.Faultless) : c.stopSweeper.Faultless := by
  have hnone : ({ c with sweeper := none } : Cache).Faultless := hf
  rcases c.stopSweeper_cases with ⟨heq, -⟩ | ⟨s, id, -, -, heq⟩ <;> rw [heq]
  · exact hnone
  · exact hnone.abort id

theorem call (hf : c.Faultless) (op : Operation) : (c.call op).2.Faultless := by
  have hbegin : (begin c.calls.length c op).2.Faultless := by
    by_cases hop : op = .shutdown
    · subst hop
      exact hf.stopSweeper.performs (performs_shutdown _ _)
    · exact hf.performs (performs_begin _ op hop c)
  exact hbegin.of_same rfl rfl

/-- No step leaves an error in the map. -/
theorem step (hc : c.Sound) (hf : c.Faultless) (ev : Event) : (c.step ev).Faultless := by
  cases ev with
  | call op => exact hf.call op
  | serviceClosed id => exact hf.goes (goes_serviceClosed hc.attuned id)
  | built id b => exact hf.built hc id b
  | wake id => exact hf.goes (goes_wake hc.attuned id)
  | abort id => exact hf.abort id
  | spawnSweeper interval =>
    rw [Cache.step, spawnSweeper]
    split <;> exact hf.stopSweeper
  | tick =>
    rw [Cache.step, tick]
    split
    · split
      · exact (hf.call .sweep).of_same rfl rfl
      · exact hf
    · exact hf
  | clock | sever | forward | world => exact hf
  | reorder rows =>
    rw [Cache.step, reorder]
    split
    · rename_i hperm
      exact hf.of_rows (fun _ hrow => (List.isPerm_iff.1 hperm).mem_iff.1 hrow) fun _ => rfl
    · exact hf

theorem run (hc : c.Sound) (hf : c.Faultless) (events : List Event) : (c.run events).Faultless := by
  induction events generalizing c with
  | nil => exact hf
  | cons ev rest ih => exact ih (hc.run [ev]) (hf.step hc ev)

end Faultless

/-! ## Giving up -/

/-- If the stretch ends with an error, it is the one of giving up on the key. -/
def GivesUp (key : Fingerprint) (r : Activity × Cache) : Prop :=
  ∀ err, r.1.error? = some err → err = deadKey key

theorem givesUp_of_none (h : r.1.error? = none) : GivesUp key r := by
  intro err herr
  rw [h] at herr
  cases herr

theorem givesUp_deadKey : GivesUp key (.ended (.failed (deadKey key)), c) :=
  fun _ herr => (Option.some.inj herr).symm

theorem givesUp_sweepFirst {next : Cache → Activity × Cache} (hf : c.Faultless)
    (hnext : ∀ c, c.Faultless → GivesUp key (next c)) :
    GivesUp key (c.sweepFirst id key left next) := by
  have hnoted : (c.note id (.round key)).Faultless := hf.of_same rfl rfl
  have hswept : ((c.note id (.round key)).expire id).2.Faultless :=
    hnoted.walk (walk_expire id .sweep _)
  unfold sweepFirst
  generalize (c.note id (.round key)).expire id = swept at hswept ⊢
  obtain ⟨_ | ⟨e, rest⟩, c'⟩ := swept
  · exact hnext c' hswept
  · exact givesUp_of_none rfl

theorem Faultless.access (hf : c.Faultless) (id : CallId) (e : EntryId) :
    (c.access id e).2.Faultless := by
  have hasked : ∀ entry, (c.checkEntry entry).2.Faultless := fun entry =>
    hf.of_same (checkEntry_rows c entry) (checkEntry_slots c entry)
  rcases c.access_cases id e with ⟨entry, -, -, -, heq⟩ | ⟨entry, -, -, -, heq⟩ |
    ⟨-, heq | ⟨entry, -, heq⟩⟩ <;> rw [heq]
  · exact (hasked entry).of_same rfl rfl
  · exact (hasked entry).of_same rfl rfl
  · exact hf
  · exact hasked entry

theorem givesUp_use {builtHere : Bool} {again : Cache → Activity × Cache} (hf : c.Faultless)
    (hagain : ∀ c, c.Faultless → GivesUp key (again c)) :
    GivesUp key (c.use id key slot e builtHere left again) := by
  have haccess := hf.access id e
  unfold use
  split
  · split
    · exact givesUp_of_none rfl
    · exact givesUp_deadKey
  · exact givesUp_of_none rfl
  · rename_i heq
    rw [heq] at haccess
    exact hagain _ (haccess.forget id key slot)

/-- What is in the map is used, built or waited for : there is no error to be met. -/
theorem givesUp_take (id : CallId) (key : Fingerprint) :
    ∀ (left : Nat) (c : Cache), c.Faultless → GivesUp key (take id key left c)
  | 0, c, _ => givesUp_deadKey
  | left + 1, c, hf => by
    have hplaced : (c.slotFor key).2.Faultless := hf.walk (@walk_slotFor id .sweep key c)
    have hcur := isCurrent_slotFor c key
    unfold take
    generalize c.slotFor key = placed at hplaced hcur ⊢
    obtain ⟨slot, c⟩ := placed
    dsimp only at hplaced hcur ⊢
    split
    · refine givesUp_use hplaced fun c hf => ?_
      split
      · exact givesUp_deadKey
      · exact givesUp_sweepFirst hf fun c hf => givesUp_take id key left c hf
    · exact absurd ‹_› (hplaced _ (mem_of_isCurrent hcur) _)
    · split <;> exact givesUp_of_none rfl

theorem givesUp_round (hf : c.Faultless) (left : Nat) : GivesUp key (c.round id key left) :=
  givesUp_sweepFirst hf fun c hf => givesUp_take id key left c hf

theorem givesUp_staleRound (hf : c.Faultless) (left : Nat) :
    GivesUp key (c.staleRound id key left) := by
  unfold staleRound
  split
  · exact givesUp_deadKey
  · exact givesUp_round hf _

/-- An outcome that is an entry is no reason to fail but by giving up. -/
theorem givesUp_observe {builtHere : Bool} (hf : c.Faultless) :
    GivesUp key (c.observe id key slot builtHere left (.ready e)) := by
  simp only [observe]
  split
  · exact givesUp_use hf fun c hf => givesUp_staleRound hf left
  · split
    · exact givesUp_of_none rfl
    · rename_i heq
      refine givesUp_round (hf.of_same ?_ ?_) left <;>
        rcases c.markClosed_cases id e with ⟨_, -, -, hmark⟩ | ⟨-, hmark⟩ <;>
        rw [heq] at hmark <;> cases hmark <;> rfl

/-! ## Other calls never fail -/

theorem error?_drain (id : CallId) : ∀ (slots : List SlotId) (released : Nat) (c : Cache),
    (drain id slots released c).1.error? = none
  | [], _, _ => rfl
  | slot :: rest, released, c => by
    unfold drain
    split
    · exact error?_drain id rest released c
    · split
      · rfl
      · exact error?_drain id rest released _

theorem error?_releaseClaimed (claimed : List EntryId) (total : Nat) :
    (c.releaseClaimed id claimed total).1.error? = none := by
  cases claimed <;> rfl

theorem error?_touch : (c.touch id key).1.error? = none := by
  unfold touch
  repeat' split
  all_goals rfl

theorem error?_close : (c.close id key).1.error? = none := by
  unfold close
  dsimp only
  repeat' split
  all_goals rfl

/-- A call that begins meets no error of a factory. -/
theorem error?_begin (hf : c.Faultless) (h : (begin id c op).1.error? = some err) :
    ∃ key, err = deadKey key := by
  have never : (begin id c op).1.error? = none → ∃ key, err = deadKey key := by
    rw [h]
    rintro ⟨⟩
  cases op with
  | get key => exact ⟨key, givesUp_round hf _ err h⟩
  | touch key => exact never error?_touch
  | sweep => exact never (error?_releaseClaimed _ _)
  | close key => exact never error?_close
  | closeAll | shutdown => exact never (error?_drain _ _ _ _)

/-- Nor does a call that has released an entry. -/
theorem error?_afterClose {a : Activity} (hf : c.Faultless) (hlive : ∀ r, a ≠ .ended r)
    (h : (afterClose id c a).1.error? = some err) : ∃ key, err = deadKey key := by
  have hended : ∀ e, (c.endRelease id e).Faultless := by
    intro e
    obtain ⟨net, hnet⟩ := c.endRelease_eq id e
    rw [hnet]
    exact hf.of_same rfl rfl
  have never : (afterClose id c a).1.error? = none → ∃ key, err = deadKey key := by
    rw [h]
    rintro ⟨⟩
  cases a with
  | getting key left phase =>
    cases phase with
    | clearing e rest =>
      cases rest with
      | nil => exact ⟨key, givesUp_take id key left _ (hended e) err h⟩
      | cons => exact never rfl
    | waiting | building => exact never rfl
    | discarding e => exact ⟨key, givesUp_round (hended e) left err h⟩
    | evicting e builtHere =>
      simp only [afterClose] at h
      split at h
      · exact ⟨key, givesUp_deadKey err h⟩
      · exact ⟨key, givesUp_staleRound (hended e) left err h⟩
  | dropping | closing => exact never rfl
  | sweeping => exact never (error?_releaseClaimed _ _)
  | draining => exact never (error?_drain _ _ _ _)
  | ended r => exact absurd rfl (hlive r)

/-! ## Whose error it is -/

/-- A call that begins comes to what its first stretch comes to, and the other calls to nothing
new. -/
theorem result?_of_call {x : Result} (h : (c.call op).2.result? id = some x) :
    (begin c.calls.length c op).1 = .ended x ∨ x = .aborted ∨ c.result? id = some x := by
  obtain ⟨c₁, hp, hold⟩ : ∃ c₁ : Cache,
      Performs c.calls.length op (c₁, {}) (begin c.calls.length c op) ∧
        (c₁.result? id = some x → x = .aborted ∨ c.result? id = some x) := by
    by_cases hop : op = .shutdown
    · subst hop
      exact ⟨c.stopSweeper, performs_shutdown _ _, result?_stopSweeper⟩
    · exact ⟨c, performs_begin _ op hop c, .inr⟩
  have hcalls : (begin c.calls.length c op).2.calls = c₁.calls := (moves_frame hp.moves).1
  refine (result?_append (c := (begin c.calls.length c op).2) h).imp And.right fun h => hold ?_
  rwa [result?_congr hcalls] at h

/-- An error that appears in a step is the one of giving up, or of the factory call of the slot
where the call built or waited. -/
def Blames (c c' : Cache) (id : CallId) (err : BrokerError) : Prop :=
  (∃ key, err = deadKey key) ∨
    ∃ slot, (c.activity? id).bind Activity.slot? = some slot ∧
      c'.outcome? slot = some (.failed err)

/-- An error that appears when one call goes on is what this call's stretch ends with. -/
theorem error_of_setActivity (hcalls : r.2.calls = c.calls)
    (h : c.result? id ≠ some (.failed err))
    (h' : (r.2.setActivity i r.1).result? id = some (.failed err)) :
    i = id ∧ r.1.error? = some err := by
  rcases result?_setActivity h' with ⟨rfl, hend⟩ | hr
  · exact ⟨rfl, by rw [hend]; rfl⟩
  · rw [result?_congr hcalls] at hr
    exact absurd hr h

theorem blame_call (hf : c.Faultless) (h : c.result? id ≠ some (.failed err))
    (h' : (c.call op).2.result? id = some (.failed err)) : ∃ key, err = deadKey key := by
  rcases result?_of_call h' with ha | ha | ha
  · exact error?_begin hf (by rw [ha]; rfl)
  · cases ha
  · exact absurd ha h

theorem blame_serviceClosed (hc : c.Sound) (hf : c.Faultless)
    (h : c.result? id ≠ some (.failed err))
    (h' : (c.step (.serviceClosed i)).result? id = some (.failed err)) :
    ∃ key, err = deadKey key := by
  rw [step, serviceClosed] at h'
  split at h'
  · rename_i a ha
    by_cases hlive : ∀ r, a ≠ .ended r
    · obtain ⟨call, hcall, rfl⟩ := activity?_eq_some_iff.1 ha
      have hfit := hc.attuned.fits call (List.mem_of_getElem? hcall)
      have hcalls := (moves_frame (@performs_afterClose i _ _ hfit hlive c).moves).1
      obtain ⟨rfl, herr⟩ := error_of_setActivity hcalls h h'
      exact error?_afterClose hf hlive herr
    · obtain ⟨r, rfl⟩ := not_forall_not.1 hlive
      rw [show afterClose i c (.ended r) = (.ended r, c) from rfl] at h'
      dsimp only at h'
      rw [setActivity_self ha] at h'
      exact absurd h' h
  · exact absurd h' h

/-- The factory's own error is the outcome of the slot; a resource that is stale at once makes the
call give up. -/
theorem blame_built {b : Built} (hc : c.Sound) (hf : c.Faultless)
    (h : c.result? id ≠ some (.failed err))
    (h' : (c.step (.built i b)).result? id = some (.failed err)) :
    c.Blames (c.step (.built i b)) id err := by
  rw [step, built] at h'
  split at h'
  · rename_i key left slot ha
    obtain ⟨hkey, -, -⟩ := hc.guarded.building i key slot (Builds.building ⟨left, ha⟩)
    have hlt := lt_of_slotKey? hkey
    cases b with
    | panicked =>
      obtain ⟨-, herr⟩ := error_of_setActivity (r := (_, c.passOn slot)) rfl h h'
      cases herr
    | failed e =>
      have hcalls : ((c.conclude slot (.failed e)).forget i key slot).calls = c.calls :=
        calls_forget _ i key slot
      obtain ⟨rfl, herr⟩ := error_of_setActivity (r := (.ended (.failed e), _)) hcalls h h'
      obtain rfl : e = err := Option.some.inj herr
      refine .inr ⟨slot, by rw [ha]; rfl, ?_⟩
      have hslots : (c.step (.built i (.failed e))).slots =
          (c.conclude slot (.failed e)).slots := by
        simp [step, built, ha, observe, setActivity, slots_forget]
      rw [outcome?, hslots]
      exact outcome?_conclude_self hlt
    | resource r =>
      have hadded : ({ c with entries := c.entries ++ [Entry.fresh key r c.net.now c.ttl] } :
          Cache).Faultless := hf
      have hp := @performs_concluded i _ key slot left _
        (outcome?_conclude_self (o := .ready c.entries.length) (c := { c with
          entries := c.entries ++ [Entry.fresh key r c.net.now c.ttl] }) hlt)
      obtain ⟨rfl, herr⟩ := error_of_setActivity (moves_frame hp.moves).1 h h'
      exact .inl ⟨key, givesUp_observe (hadded.conclude_ready hlt _) err herr⟩
  · exact absurd h' h

theorem blame_wake (hf : c.Faultless) (h : c.result? id ≠ some (.failed err))
    (h' : (c.step (.wake i)).result? id = some (.failed err)) :
    c.Blames (c.step (.wake i)) id err := by
  rw [step, wake] at h'
  split at h'
  · rename_i key left slot ha
    split at h'
    · rename_i o ho
      have hp := @performs_leave i _ key slot left _ ho
      obtain ⟨rfl, herr⟩ := error_of_setActivity (moves_frame hp.moves).1 h h'
      cases o with
      | ready e => exact .inl ⟨key, givesUp_observe hf err herr⟩
      | failed e =>
        obtain rfl : e = err := Option.some.inj herr
        refine .inr ⟨slot, by rw [ha]; rfl, ?_⟩
        have hslots : (c.step (.wake i)).slots = c.slots := by
          simp [step, wake, ha, ho, observe, setActivity, slots_forget]
        rw [outcome?, hslots]
        exact ho
    · split at h'
      · obtain ⟨-, herr⟩ := error_of_setActivity (r := (_, c.note i (.build slot))) rfl h h'
        cases herr
      · exact absurd h' h
  · exact absurd h' h

/-- In a step in which a call comes to an error, it gives up, or the factory call of the slot where
it is has failed with that error. -/
theorem blame_of_step (hc : c.Sound) (hf : c.Faultless) (h : c.result? id ≠ some (.failed err))
    (h' : (c.step ev).result? id = some (.failed err)) : c.Blames (c.step ev) id err := by
  cases ev with
  | call op => exact .inl (blame_call hf h h')
  | serviceClosed i => exact .inl (blame_serviceClosed hc hf h h')
  | built i b => exact blame_built hc hf h h'
  | wake i => exact blame_wake hf h h'
  -- What is stopped or cancelled ends in another way.
  | abort i => exact ((result?_abort h').elim (by simp) (absurd · h))
  | spawnSweeper interval =>
    have hstopped : c.stopSweeper.result? id ≠ some (.failed err) := fun hr =>
      (result?_stopSweeper hr).elim (by simp) h
    rw [step, spawnSweeper] at h'
    split at h' <;> exact absurd h' hstopped
  | tick =>
    rw [step, tick] at h'
    split at h'
    · split at h'
      · have hswept : (c.call .sweep).2.result? id = some (.failed err) := h'
        exact .inl (blame_call hf h hswept)
      · exact absurd h' h
    · exact absurd h' h
  | clock | sever | forward | world => exact absurd h' h
  | reorder rows =>
    rw [step, reorder] at h'
    split at h' <;> exact absurd h' h

end Cache

end ConnectionBroker
