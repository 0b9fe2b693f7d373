import ConnectionBroker.Proofs.Cache.Move
import ConnectionBroker.Proofs.Cache.Tables

/-!
# Stretches are chains of moves

Every stretch of a call, from one wait to the next, is a chain of moves. The operations are taken
one by one, from the sweep that a round begins with (`walk_expire`) through the rounds of a `get`
(`performs_take`, `performs_observe`) to what begins a stretch : a call begins (`performs_begin`),
the service that it has told to close is closed (`performs_afterClose`), it has waited
(`performs_leave`, `performs_promote`), its build has ended (`resumes_settle`, `resumes_fail`,
`resumes_panic`).
-/

namespace ConnectionBroker

/-- The service that a call returns, if it returns one. -/
def Result.service? : Result → Option ServiceId
  | .service s => some s
  | _ => none

namespace Cache

open Relation (ReflTransGen)

variable {id : CallId} {op : Operation} {c : Cache} {h : Hand} {key : Fingerprint}
  {slot : SlotId} {e : EntryId} {left : Nat}

/-- A call can end whenever it has nothing in hand. -/
theorem performs_ended {r : Result} (hr : r.service? = none) :
    Performs id op (c, {}) (.ended r, c) := by
  refine .of_walk .refl (by cases op <;> trivial) fun service h => ?_
  rw [Activity.ended.inj h] at hr
  cases hr

/-- A call goes on with the release of the first of the entries that it has claimed. -/
theorem performs_beginRelease {a : Activity} {rest : List EntryId} {slots : List SlotId}
    (ha : a.hand = { releasing := some e, claimed := rest, drained := slots })
    (hfit : a.Fits op) :
    Performs id op (c, { claimed := e :: rest, drained := slots }) (a, c.beginRelease id e) := by
  refine .of_walk ?_ hfit ?_
  · rw [ha]
    exact .single ⟨rfl, .tell rfl rfl⟩
  · rintro service rfl
    cases ha

/-! ## Sweeping -/

/-- The order of the rows is nothing to the hop of an entry. -/
theorem checkEntry_current (c : Cache) (rows : List (Fingerprint × SlotId)) (entry : Entry) :
    ({ c with current := rows }).checkEntry entry =
      ((c.checkEntry entry).1, { (c.checkEntry entry).2 with current := rows }) := by
  unfold checkEntry
  split <;> rfl

/-- A sweep over some rows of the map, with the rows before them kept : the induction is on the
rows yet to be looked at. -/
theorem walk_claimStale (id : CallId) (op : Operation) :
    ∀ (rows pre : List (Fingerprint × SlotId)) (c : Cache) (h : Hand), h.building = none →
      Walk id op ({ c with current := pre ++ rows }, h)
        ({ (claimStale id rows c).2.2 with current := pre ++ (claimStale id rows c).2.1 },
          { h with claimed := h.claimed ++ (claimStale id rows c).1 })
  | [], pre, c, h, _ => by
    simp only [claimStale, List.append_nil]
    exact .refl
  | row :: rest, pre, c, h, hb => by
    have kept : ∀ c' : Cache, Walk id op ({ c' with current := pre ++ row :: rest }, h)
        ({ (claimStale id rest c').2.2 with current := pre ++ row :: (claimStale id rest c').2.1 },
          { h with claimed := h.claimed ++ (claimStale id rest c').1 }) := by
      intro c'
      simpa using walk_claimStale id op rest (pre ++ [row]) c' h hb
    cases hr : c.ready? row.2 with
    | none => simpa only [claimStale, hr] using kept c
    | some e =>
      rcases c.tryExpire_cases id e with ⟨entry, he, hopen, hstale, heq⟩ | heq | ⟨entry, he, heq⟩
      · have hmove : Move id op ({ c with current := pre ++ row :: rest }, h) _ :=
          .evict rfl hr he hopen (by rw [checkEntry_current]; exact hstale)
        refine .head ⟨hb, hmove⟩ ?_
        have ih := walk_claimStale id op rest pre
          ((((c.checkEntry entry).2.setEntry e { entry with closed := true }).note id
            (.claim e)).note id (.forget row.2)) { h with claimed := h.claimed ++ [e] } hb
        simp only [List.append_assoc, List.singleton_append] at ih
        simp only [claimStale, hr, heq, checkEntry_current]
        exact ih
      · simpa only [claimStale, hr, heq] using kept c
      · have hmove : Move id op ({ c with current := pre ++ row :: rest }, h) _ :=
          .keep (show ({ c with current := pre ++ row :: rest } : Cache).entries[e]? = some entry
            from he)
        refine .head ⟨hb, hmove⟩ ?_
        simpa only [claimStale, hr, heq, checkEntry_current] using kept (c.checkEntry entry).2

/-- A sweep claims entries of the map and nothing else. -/
theorem walk_expire (id : CallId) (op : Operation) (c : Cache) :
    Walk id op (c, {}) ((c.expire id).2, { claimed := (c.expire id).1 }) := by
  simpa only [List.nil_append, expire] using walk_claimStale id op c.current [] c {} rfl

/-! ## The rounds of a `get` -/

theorem performs_sweepFirst {next : Cache → Activity × Cache}
    (hnext : ∀ c, Performs id (.get key) (c, {}) (next c)) (c : Cache) :
    Performs id (.get key) (c, {}) (c.sweepFirst id key left next) := by
  refine .of_move rfl (.round key) (.trans (walk_expire id _ _) ?_)
  unfold sweepFirst
  rcases (c.note id (.round key)).expire id with ⟨_ | ⟨e, rest⟩, c'⟩
  · exact hnext c'
  · exact performs_beginRelease rfl rfl

/-- A stale entry of the map is claimed first, and then its row is taken out. -/
theorem move_evict {entry : Entry} (hcur : c.isCurrent key slot = true)
    (hready : c.ready? slot = some e) (he : c.entries[e]? = some entry)
    (hopen : entry.closed = false)
    (hstale : entry.isStale c.net.now (c.checkEntry entry).1 = true) :
    Move id op (c, h)
      ((((c.checkEntry entry).2.setEntry e { entry with closed := true }).note id
          (.claim e)).forget id key slot, { h with claimed := h.claimed ++ [e] }) := by
  obtain ⟨net, hnet, -⟩ := c.checkEntry_eq entry
  have hcur' : (((c.checkEntry entry).2.setEntry e { entry with closed := true }).note id
      (.claim e)).isCurrent key slot = true := by
    rw [hnet]
    exact hcur
  obtain ⟨pre, post, hrow, hforget⟩ := forget_of_isCurrent id hcur'
  rw [hnet] at hrow
  rw [hforget]
  exact .evict hrow hready he hopen hstale

theorem move_forget {o : Outcome} (hcur : c.isCurrent key slot = true)
    (ho : c.outcome? slot = some o) (hclosed : ∀ e, o = .ready e → c.isOpen e = false) :
    Move id op (c, h) (c.forget id key slot, h) := by
  obtain ⟨pre, post, hrow, hforget⟩ := forget_of_isCurrent id hcur
  rw [hforget]
  exact .forget hrow ho hclosed

/-- Using the entry of a slot that its key has now. -/
theorem performs_use {builtHere : Bool} {again : Cache → Activity × Cache}
    (hcur : c.isCurrent key slot = true) (hready : c.ready? slot = some e)
    (hagain : ∀ c, Performs id (.get key) (c, {}) (again c)) :
    Performs id (.get key) (c, {}) (c.use id key slot e builtHere left again) := by
  rcases c.access_cases id e with ⟨entry, he, hopen, hfresh, heq⟩ |
    ⟨entry, he, hopen, hstale, heq⟩ | ⟨hclosed, heq⟩
  · have hused := entries_setEntry_self (c := (c.checkEntry entry).2) (i := e)
      (by rw [checkEntry_entries, he]) { entry with lastUse := c.net.now }
    simp only [use, heq, hused]
    refine ⟨.single ⟨rfl, .touch he hopen hfresh⟩, trivial, ?_⟩
    rintro service ⟨⟩
    refine ⟨key, c, e, entry, ⟨rfl, .refl, ?_, he, hfresh, rfl⟩, rfl⟩
    exact find?_eq_some_iff.2 ⟨slot, beq_iff_eq.1 hcur, hready,
      isOpen_eq_true_iff.2 ⟨entry, he, hopen⟩⟩
  · refine .of_move rfl (move_evict hcur hready he hopen hstale) ?_
    simp only [use, heq]
    exact performs_beginRelease rfl rfl
  · have hout : ∀ e', Outcome.ready e = .ready e' → c.isOpen e' = false := by
      rintro e' ⟨⟩
      exact hclosed
    rcases heq with heq | ⟨entry, he, heq⟩
    · refine .of_move rfl (move_forget hcur (ready?_eq_some_iff.1 hready) hout) ?_
      simp only [use, heq]
      exact hagain _
    · obtain ⟨net, hnet, -⟩ := c.checkEntry_eq entry
      refine .of_move rfl (.keep he) ?_
      rw [hnet] at heq ⊢
      simp only [use, heq]
      exact .of_move rfl (move_forget (c := { c with net }) hcur (ready?_eq_some_iff.1 hready) hout)
        (hagain _)

/-- Giving up on a slot whose build failed. -/
theorem performs_forget_failed {err : BrokerError} (ho : c.outcome? slot = some (.failed err))
    (e : BrokerError) : Performs id op (c, {}) (.ended (.failed e), c.forget id key slot) := by
  cases hcur : c.isCurrent key slot with
  | true => exact .of_move rfl (move_forget hcur ho (by rintro e ⟨⟩)) (performs_ended rfl)
  | false =>
    rw [forget_of_not_isCurrent hcur]
    exact performs_ended rfl

/-- Claiming the entry of a slot outside the map leaves nothing open in the slot, whether the entry
is claimed or was closed before. -/
theorem walk_markClosed {slots : List SlotId} (hready : c.ready? slot = some e) :
    (∃ c', c.markClosed id e = (true, c') ∧
      Walk id op (c, { drained := slot :: slots }) (c', { claimed := [e], drained := slots })) ∨
    (c.markClosed id e = (false, c) ∧
      Walk id op (c, { drained := slot :: slots }) (c, { drained := slots })) := by
  have honly : ∀ {c' : Cache}, c'.isOpen e = false → ∀ e', c.ready? slot = some e' →
      c'.isOpen e' = false := by
    intro c' hclosed e' he'
    obtain rfl : e = e' := Option.some.inj (hready.symm.trans he')
    exact hclosed
  rcases c.markClosed_cases id e with ⟨entry, he, hopen, heq⟩ | ⟨hclosed, heq⟩
  · refine .inl ⟨_, heq, .head ⟨rfl, .claim List.mem_cons_self hready he hopen⟩
      (.single ⟨rfl, .skip rfl (honly ?_)⟩)⟩
    obtain ⟨hi, -⟩ := List.getElem?_eq_some_iff.1 he
    simp [isOpen, note, setEntry, hi]
  · exact .inr ⟨heq, .single ⟨rfl, .skip rfl (honly hclosed)⟩⟩

theorem walk_slotFor (key : Fingerprint) (c : Cache) :
    Walk id op (c, {}) ((c.slotFor key).2, {}) := by
  cases hl : c.current.lookup key with
  | some slot => rw [slotFor_of_some hl]
  | none => exact .single ⟨rfl, .place hl⟩

/-- The induction is on the stale rounds that are left : an entry that is closed already starts
another round in the same stretch. -/
theorem performs_take (id : CallId) (key : Fingerprint) :
    ∀ (left : Nat) (c : Cache), Performs id (.get key) (c, {}) (take id key left c)
  | 0, c => performs_ended rfl
  | left + 1, c => by
    refine .trans (walk_slotFor key c) ?_
    have hcur := isCurrent_slotFor c key
    unfold take
    generalize c.slotFor key = r at hcur ⊢
    obtain ⟨slot, c⟩ := r
    dsimp only at hcur ⊢
    split
    · refine performs_use hcur (ready?_eq_some_iff.2 ‹_›) fun c => ?_
      split
      · exact performs_ended rfl
      · exact performs_sweepFirst (performs_take id key left) c
    · exact performs_forget_failed ‹_› _
    · split
      · exact .of_walk (.single ⟨rfl, .build hcur ‹_› ‹_›⟩) rfl (by simp)
      · exact .of_walk (.single ⟨rfl, .queue hcur (by simp [*]) ‹_›⟩) rfl (by simp)

theorem performs_round (left : Nat) (c : Cache) :
    Performs id (.get key) (c, {}) (c.round id key left) :=
  performs_sweepFirst (performs_take id key left) c

theorem performs_staleRound (left : Nat) (c : Cache) :
    Performs id (.get key) (c, {}) (c.staleRound id key left) := by
  unfold staleRound
  split
  · exact performs_ended rfl
  · exact performs_round _ c

/-- Looking at the outcome of a slot. Outside the map the entry is the call's to discard. -/
theorem performs_observe {builtHere : Bool} {o : Outcome} (ho : c.outcome? slot = some o) :
    Performs id (.get key) (c, { drained := c.outside key slot })
      (c.observe id key slot builtHere left o) := by
  cases hcur : c.isCurrent key slot with
  | true =>
    rw [outside, if_pos hcur]
    cases o with
    | failed err => exact performs_forget_failed ho _
    | ready e =>
      simp only [observe, hcur, if_true]
      exact performs_use hcur (ready?_eq_some_iff.2 ho) (performs_staleRound left)
  | false =>
    rw [outside, if_neg (by simp [hcur])]
    cases o with
    | failed err =>
      refine .of_move rfl (.skip rfl fun e he => ?_) (performs_forget_failed ho _)
      rw [ready?_eq_some_iff, ho] at he
      simp at he
    | ready e =>
      simp only [observe, hcur, Bool.false_eq_true, if_false]
      rcases walk_markClosed (ready?_eq_some_iff.2 ho) with ⟨c', heq, hm⟩ | ⟨heq, hm⟩
      · rw [heq]
        exact .trans hm (performs_beginRelease rfl rfl)
      · rw [heq]
        exact .trans hm (performs_round left c)

/-! ## The other operations -/

/-- A sweep releases what it claimed, one entry after the other. -/
theorem performs_releaseClaimed (claimed : List EntryId) (total : Nat) (c : Cache) :
    Performs id .sweep (c, { claimed := claimed }) (c.releaseClaimed id claimed total) := by
  cases claimed with
  | nil => exact performs_ended rfl
  | cons e rest => exact performs_beginRelease rfl trivial

theorem performs_touch (id : CallId) (key : Fingerprint) (c : Cache) :
    Performs id (.touch key) (c, {}) (c.touch id key) := by
  unfold touch
  split
  · exact performs_ended rfl
  · rename_i slot hl
    split
    · exact performs_ended rfl
    · rename_i e hready
      rcases c.access_cases id e with ⟨entry, he, hopen, hfresh, heq⟩ |
        ⟨entry, he, hopen, hstale, heq⟩ | ⟨-, heq | ⟨entry, he, heq⟩⟩
      · rw [heq]
        exact .of_move rfl (.touch he hopen hfresh) (performs_ended rfl)
      · rw [heq]
        exact .of_move rfl (move_evict (beq_iff_eq.2 hl) hready he hopen hstale)
          (performs_beginRelease rfl trivial)
      · rw [heq]
        exact performs_ended rfl
      · rw [heq]
        exact .of_move rfl (.keep he) (performs_ended rfl)

theorem performs_close (id : CallId) (key : Fingerprint) (c : Cache) :
    Performs id (.close key) (c, {}) (c.close id key) := by
  unfold close
  cases hl : c.current.lookup key with
  | none =>
    have hnone : c.withdraw id key = c := by simp [withdraw, hl]
    simp only [hnone, Option.bind_none]
    exact performs_ended rfl
  | some slot =>
    obtain ⟨pre, post, hrow, hwithdraw⟩ := withdraw_of_lookup id hl
    refine .of_move rfl (.withdraw hrow rfl) ?_
    simp only [← hwithdraw, Option.bind_some]
    have hready : (c.withdraw id key).ready? slot = c.ready? slot := by
      rw [hwithdraw]
      rfl
    cases hr : c.ready? slot with
    | none =>
      refine .of_move rfl (.skip rfl fun e he => ?_) (performs_ended rfl)
      rw [hready, hr] at he
      simp at he
    | some e =>
      dsimp only
      rcases walk_markClosed (hready.trans hr) with ⟨c', heq, hm⟩ | ⟨heq, hm⟩
      · rw [heq]
        exact .trans hm (performs_beginRelease rfl trivial)
      · rw [heq]
        exact .trans hm (performs_ended rfl)

theorem performs_drain (hop : op = .closeAll ∨ op = .shutdown) :
    ∀ (slots : List SlotId) (released : Nat) (c : Cache),
      Performs id op (c, { drained := slots }) (drain id slots released c)
  | [], released, c => performs_ended rfl
  | slot :: rest, released, c => by
    unfold drain
    split
    · refine .of_move rfl (.skip rfl fun e he => ?_) (performs_drain hop rest released c)
      simp_all
    · rcases walk_markClosed ‹_› with ⟨c', heq, hm⟩ | ⟨heq, hm⟩
      · rw [heq]
        exact .trans hm (performs_beginRelease rfl (by rcases hop with rfl | rfl <;> trivial))
      · rw [heq]
        exact .trans hm (performs_drain hop rest released c)

theorem walk_withdrawAll (hop : ∀ key, op.Closes key) (c : Cache) :
    Walk id op (c, {}) (c.withdrawAll id, { drained := c.current.map (·.2) }) := by
  -- The rows before the one in hand are gone already.
  have gone : ∀ (rows : List (Fingerprint × SlotId)) (c : Cache) (slots : List SlotId),
      c.current = rows → Walk id op (c, { drained := slots })
        (c.withdrawAll id, { drained := slots ++ rows.map (·.2) }) := by
    intro rows
    induction rows with
    | nil =>
      intro c slots hrows
      have hself : c.withdrawAll id = c := by
        obtain ⟨net, ttl, current, slots, entries, calls, sweeper, journal⟩ := c
        simp only at hrows
        simp [withdrawAll, hrows]
      rw [hself, List.map_nil, List.append_nil]
    | cons row rest ih =>
      intro c slots hrows
      have hmove : Move id op (c, { drained := slots })
          ({ c.note id (.withdraw row.1 row.2) with current := [] ++ rest },
            { drained := slots ++ [row.2] }) := .withdraw hrows (hop row.1)
      refine .head ⟨rfl, hmove⟩ ?_
      have hrest := ih ({ c.note id (.withdraw row.1 row.2) with current := rest })
        (slots ++ [row.2]) rfl
      simpa [withdrawAll, note, hrows] using hrest
  exact gone c.current c [] rfl

theorem performs_closeAll (hop : op = .closeAll ∨ op = .shutdown) (c : Cache) :
    Performs id op (c, {}) (c.closeAll id) :=
  .trans (walk_withdrawAll (fun _ => by rcases hop with rfl | rfl <;> trivial) c)
    (performs_drain hop _ 0 _)

/-! ## What begins a stretch -/

/-- The first stretch of a call. That a shutdown stops the sweeper comes before it. -/
theorem performs_begin (id : CallId) (op : Operation) (hop : op ≠ .shutdown) (c : Cache) :
    Performs id op (c, {}) (begin id c op) := by
  cases op with
  | get key => exact performs_round _ c
  | touch key => exact performs_touch id key c
  | sweep =>
    exact .trans (walk_expire id .sweep c) (performs_releaseClaimed _ _ _)
  | close key => exact performs_close id key c
  | closeAll => exact performs_closeAll (.inl rfl) c
  | shutdown => exact absurd rfl hop

theorem performs_shutdown (id : CallId) (c : Cache) :
    Performs id .shutdown (c, {}) (c.closeAll id) :=
  performs_closeAll (.inr rfl) c

/-- A call that has ended the release of an entry goes on with what else it has in hand. -/
theorem performs_endRelease {a : Activity} (hfit : a.Fits op) (hrel : a.releasing? = some e)
    (c : Cache) : Performs id op (c.endRelease id e, { a.hand with releasing := none })
      (afterClose id c a) := by
  cases a with
  | getting key left phase =>
    obtain rfl : op = .get key := by cases op <;> simp_all [Activity.Fits]
    cases phase with
    | clearing e rest =>
      cases hrel
      cases rest with
      | nil => exact performs_take id key left _
      | cons e' rest => exact performs_beginRelease rfl rfl
    | discarding e =>
      cases hrel
      exact performs_round left _
    | evicting e builtHere =>
      cases hrel
      simp only [afterClose]
      split
      · exact performs_ended rfl
      · exact performs_staleRound left _
    | waiting | building => cases hrel
  | dropping e | closing e =>
    cases hrel
    exact performs_ended rfl
  | sweeping e rest total =>
    cases hrel
    obtain rfl : op = .sweep := by cases op <;> simp_all [Activity.Fits]
    exact performs_releaseClaimed rest total _
  | draining e rest released =>
    cases hrel
    have hop : op = .closeAll ∨ op = .shutdown := by cases op <;> simp_all [Activity.Fits]
    exact performs_drain hop rest (released + 1) _
  | ended r => cases hrel

/-- A call that has told no service to close waits for something else. -/
theorem afterClose_of_none {a : Activity} (hrel : a.releasing? = none) (id : CallId) (c : Cache) :
    afterClose id c a = (a, c) := by
  cases a with
  | getting key left phase => cases phase <;> first | rfl | cases hrel
  | ended r => rfl
  | _ => cases hrel

/-- What a call does once the service that it has told to close is closed. -/
theorem performs_afterClose {a : Activity} (hfit : a.Fits op) (hlive : ∀ r, a ≠ .ended r)
    (c : Cache) : Performs id op (c, a.hand) (afterClose id c a) := by
  cases hrel : a.releasing? with
  | none =>
    rw [afterClose_of_none hrel]
    exact .of_walk .refl hfit fun service => hlive _
  | some e =>
    exact .of_move (Activity.building_of_releasing hrel) (.finish hrel)
      (performs_endRelease hfit hrel c)

/-- What a waiting call does when there is an outcome. -/
theorem performs_leave {o : Outcome} (ho : c.outcome? slot = some o) :
    Performs id (.get key) (c, (Activity.getting key left (.waiting slot)).hand)
      (c.observe id key slot false left o) := by
  refine .of_move rfl (.leave rfl ho) ?_
  rw [show (Activity.getting key left (.waiting slot)).hand.drained = [] from rfl, List.append_nil]
  exact performs_observe ho

/-- What a waiting call does when the right to build was passed on to it. -/
theorem performs_promote (hb : c.builder? slot = some id) (ho : c.outcome? slot = none) :
    Performs id (.get key) (c, (Activity.getting key left (.waiting slot)).hand)
      (.getting key left (.building slot), c.note id (.build slot)) :=
  .of_walk (.single ⟨rfl, .promote rfl hb ho⟩) rfl (by simp)

/-- What a call does once its build has an outcome. -/
theorem performs_concluded {o : Outcome} (ho : c.outcome? slot = some o) :
    Performs id (.get key)
      (c, { (Activity.getting key left (.building slot)).hand with
        building := none
        drained := c.outside key slot ++ (Activity.getting key left (.building slot)).hand.drained })
      (c.observe id key slot true left o) := by
  rw [show (Activity.getting key left (.building slot)).hand.drained = [] from rfl,
    List.append_nil]
  exact performs_observe ho

/-- What a call does when it has built an entry. -/
theorem resumes_settle {r : Resource} (hslot : slot < c.slots.length) :
    Resumes id (.get key) (c, (Activity.getting key left (.building slot)).hand)
      (({ c with entries := c.entries ++ [Entry.fresh key r c.net.now c.ttl] }.conclude slot
        (.ready c.entries.length)).observe id key slot true left (.ready c.entries.length)) :=
  .of_move (.settle r rfl) (performs_concluded (outcome?_conclude_self hslot))

/-- What a call does when it has failed to build. -/
theorem resumes_fail {err : BrokerError} (hslot : slot < c.slots.length) :
    Resumes id (.get key) (c, (Activity.getting key left (.building slot)).hand)
      ((c.conclude slot (.failed err)).observe id key slot true left (.failed err)) :=
  .of_move (.fail err rfl) (performs_concluded (outcome?_conclude_self hslot))

/-- What a call does when building panics. -/
theorem resumes_panic :
    Resumes id (.get key) (c, (Activity.getting key left (.building slot)).hand)
      (.ended .panicked, c.passOn slot) :=
  .of_move (.panic rfl) (performs_ended rfl)

end Cache

end ConnectionBroker
