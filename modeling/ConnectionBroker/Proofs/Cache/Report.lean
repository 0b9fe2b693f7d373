import ConnectionBroker.Proofs.Cache.Run

/-!
# What a closing call reports

A `close` says whether it has released an entry, a `closeAll` or a shutdown how many. The journal
knows better : the entries that a call has claimed are in it under the call's name
(`Cache.claimsOf`). A closing call counts what it claims and nothing else, from its first stretch
on (`Tallies`), and so the report of one that has ended is the number of its claims
(`reported_run`).
-/

namespace ConnectionBroker

/-- The entry that a deed claims. -/
def Deed.claim? : Deed → Option EntryId
  | .claim e => some e
  | _ => none

/-- How many entries a closing call has to report as things stand. -/
def Activity.tally? : Activity → Option Nat
  | .closing _ => some 1
  | .draining _ _ released => some (released + 1)
  | .ended (.flag b) => some b.toNat
  | .ended (.count n) => some n
  | _ => none

/-- The operation closes some key. -/
def Operation.Closing (op : Operation) : Prop :=
  ∃ key, op.Closes key

namespace Cache

variable {id i : CallId} {op : Operation} {c c' x : Cache} {h h' : Hand} {e : EntryId}
  {ds : List Deed} {a : Activity} {n : Nat}

/-- The entries that a call has claimed, in order. -/
def claimsOf (c : Cache) (id : CallId) : List EntryId :=
  c.journal.filterMap fun d => if d.1 = id then d.2.claim? else none

theorem mem_claimsOf : e ∈ c.claimsOf id ↔ (id, .claim e) ∈ c.journal := by
  simp only [claimsOf, List.mem_filterMap]
  constructor
  · rintro ⟨⟨i, d⟩, hd, he⟩
    split at he
    · cases d <;> simp_all [Deed.claim?]
    · cases he
  · exact fun hd => ⟨_, hd, by simp [Deed.claim?]⟩

/-- What a call does adds to its own claims. -/
theorem claimsOf_append (ds : List Deed) (hj : c'.journal = c.journal ++ ds.map (i, ·)) :
    c'.claimsOf id = c.claimsOf id ++ if i = id then ds.filterMap Deed.claim? else [] := by
  rw [claimsOf, hj, List.filterMap_append, List.filterMap_map]
  split
  · subst i
    simp [claimsOf]
  · rename_i hi
    simp [claimsOf, hi]

/-! ## Stretches of a closing call -/

/-- What a stretch adds to the tally of a call is what it claims. -/
def Tallies (id : CallId) (n : Nat) (c : Cache) (r : Activity × Cache) : Prop :=
  ∃ n', r.1.tally? = some n' ∧ n' + (c.claimsOf id).length = n + (r.2.claimsOf id).length

theorem Tallies.congr {r : Activity × Cache} (ht : Tallies id n c' r)
    (hclaims : c'.claimsOf id = c.claimsOf id) : Tallies id n c r := by
  obtain ⟨n', htally, hsum⟩ := ht
  exact ⟨n', htally, hclaims ▸ hsum⟩

/-- A call that claims an entry and begins to release it has claimed one more. -/
theorem claimsOf_release {entry : Entry} :
    ((((c.setEntry e entry).note id (.claim e)).beginRelease id e).claimsOf id).length =
      (c.claimsOf id).length + 1 := by
  obtain ⟨net, hnet⟩ := ((c.setEntry e entry).note id (.claim e)).beginRelease_eq id e
  rw [hnet, claimsOf_append (c := c) (i := id) [.claim e, .tellService e]
    (by simp [note, setEntry]), if_pos rfl, List.length_append]
  rfl

theorem claimsOf_endRelease : (c.endRelease id e).claimsOf id = c.claimsOf id := by
  obtain ⟨net, hnet⟩ := c.endRelease_eq id e
  rw [hnet, claimsOf_append (c := c) [.serviceClosed e, .closeHop e] rfl, if_pos rfl]
  exact List.append_nil _

theorem tallies_drain (id : CallId) : ∀ (slots : List SlotId) (released : Nat) (c : Cache),
    Tallies id released c (drain id slots released c)
  | [], released, c => ⟨released, rfl, rfl⟩
  | slot :: rest, released, c => by
    unfold drain
    split
    · exact tallies_drain id rest released c
    · rcases c.markClosed_cases id _ with ⟨entry, he, hopen, heq⟩ | ⟨hclosed, heq⟩
      · rw [heq]
        refine ⟨released + 1, rfl, ?_⟩
        rw [claimsOf_release]
        omega
      · rw [heq]
        exact tallies_drain id rest released c

theorem tallies_closeAll (id : CallId) (c : Cache) : Tallies id 0 c (c.closeAll id) := by
  refine (tallies_drain id _ 0 (c.withdrawAll id)).congr ?_
  rw [claimsOf_append (c := c) (i := id) (c.current.map fun row => .withdraw row.1 row.2)
    (by simp [withdrawAll])]
  simp [Deed.claim?, List.filterMap_map, Function.comp_def]

theorem claimsOf_withdraw {key : Fingerprint} :
    (c.withdraw id key).claimsOf id = c.claimsOf id := by
  cases hl : c.current.lookup key with
  | none => simp [withdraw, hl]
  | some slot =>
    obtain ⟨pre, post, -, hwithdraw⟩ := withdraw_of_lookup id hl
    rw [hwithdraw, claimsOf_append (c := c) [.withdraw key slot] rfl, if_pos rfl]
    exact List.append_nil _

theorem tallies_close (id : CallId) (key : Fingerprint) (c : Cache) :
    Tallies id 0 c (c.close id key) := by
  have hclaims : (c.withdraw id key).claimsOf id = c.claimsOf id := claimsOf_withdraw
  refine Tallies.congr ?_ hclaims
  unfold close
  dsimp only
  split
  · exact ⟨0, rfl, rfl⟩
  · rename_i e he
    rcases (c.withdraw id key).markClosed_cases id e with ⟨entry, -, -, heq⟩ | ⟨-, heq⟩
    · rw [heq]
      refine ⟨1, rfl, ?_⟩
      rw [claimsOf_release]
      omega
    · rw [heq]
      exact ⟨0, rfl, rfl⟩

/-- The first stretch of a closing call. That a shutdown stops the sweeper comes before it. -/
theorem tallies_begin (hop : op.Closing) :
    Tallies id 0 (if op = .shutdown then c.stopSweeper else c) (begin id c op) := by
  obtain ⟨key, hkey⟩ := hop
  cases op with
  | close key' => exact tallies_close id key' c
  | closeAll => exact tallies_closeAll id c
  | shutdown => exact tallies_closeAll id c.stopSweeper
  | get | touch | sweep => exact hkey.elim

/-- A closing call in progress has something to report. -/
theorem tally_of_closing (hop : op.Closing) (hfit : a.Fits op) (hlive : ∀ r, a ≠ .ended r) :
    ∃ n, a.tally? = some n := by
  obtain ⟨key, hkey⟩ := hop
  cases a with
  | closing | draining => exact ⟨_, rfl⟩
  | ended r => exact absurd rfl (hlive r)
  | getting | dropping | sweeping =>
    cases op <;> first | exact hkey.elim | exact hfit.elim

/-- A closing call builds nothing and waits for nobody. -/
theorem not_closing_of_getting {key : Fingerprint} {left : Nat} {phase : Phase}
    (hfit : (Activity.getting key left phase).Fits op) : ¬op.Closing := by
  rintro ⟨key', hkey⟩
  cases op <;> first | exact hkey.elim | exact hfit.elim

/-- What a closing call does once the service that it has told to close is closed. -/
theorem tallies_afterClose (hop : op.Closing) (hfit : a.Fits op) (htally : a.tally? = some n)
    (c : Cache) : Tallies id n c (afterClose id c a) := by
  have hend : ∀ {e r}, Tallies id n (c.endRelease id e) r → Tallies id n c r := fun h =>
    h.congr claimsOf_endRelease
  obtain ⟨key, hkey⟩ := hop
  cases a with
  | closing e => exact hend ⟨n, htally, rfl⟩
  | draining e rest released =>
    obtain rfl : released + 1 = n := Option.some.inj htally
    exact hend (tallies_drain id rest _ _)
  | ended r => exact ⟨n, htally, rfl⟩
  | getting | dropping | sweeping => simp [Activity.tally?] at htally

/-! ## Runs -/

/-- Every closing call has claimed what it has to report. -/
def Reported (c : Cache) : Prop :=
  ∀ id call n, c.calls[id]? = some call → call.operation.Closing →
    call.activity.tally? = some n → (c.claimsOf id).length = n

namespace Reported

/-- A closing call that has begun will report what it claims, however far it is. -/
theorem of_call {call : Call} (hr : c'.Reported) (h : Strides (fun _ => True) c c')
    (hcall : c.calls[i]? = some call) (hop : call.operation.Closing) {n : Nat}
    (hn : (c'.activity? i).bind Activity.tally? = some n) : (c'.claimsOf i).length = n := by
  obtain ⟨a, ha, htally⟩ := Option.bind_eq_some_iff.1 hn
  obtain ⟨last, hlast, rfl⟩ := activity?_eq_some_iff.1 ha
  obtain ⟨last', hlast', hsame, -⟩ := h.keeps_call hcall
  obtain rfl : last' = last := Option.some.inj (hlast'.symm.trans hlast)
  exact hr i last' n hlast (hsame ▸ hop) htally

/-- One call goes on, and nothing changes for the others. -/
theorem of_others (hr : c.Reported)
    (hothers : ∀ id, id ≠ i → c'.calls[id]? = c.calls[id]? ∧ c'.claimsOf id = c.claimsOf id)
    (hself : ∀ call n, c'.calls[i]? = some call → call.operation.Closing →
      call.activity.tally? = some n → (c'.claimsOf i).length = n) : c'.Reported := by
  intro id call n hcall hop htally
  by_cases hid : id = i
  · subst hid
    exact hself call n hcall hop htally
  · obtain ⟨hcalls, hclaims⟩ := hothers id hid
    rw [hclaims]
    exact hr id call n (hcalls ▸ hcall) hop htally

/-- A call goes on for a stretch. -/
theorem setActivity (hr : c.Reported) (hm : Moves i op (c, h) (x, h'))
    (hself : ∀ call n, c.calls[i]? = some call → call.operation.Closing →
      a.tally? = some n → (x.claimsOf i).length = n) : (x.setActivity i a).Reported := by
  obtain ⟨hcalls, -, ds, -, hj⟩ := moves_frame hm
  have hcalls : x.calls = c.calls := hcalls
  refine hr.of_others (i := i) (fun id hid => ⟨?_, ?_⟩) fun call n hcall hop htally => ?_
  · simp [Cache.setActivity, hcalls, Ne.symm hid]
  · rw [show (x.setActivity i a).claimsOf id = x.claimsOf id from rfl, claimsOf_append _ hj,
      if_neg (Ne.symm hid), List.append_nil]
  · obtain ⟨old, hold, rfl⟩ :
        ∃ old, c.calls[i]? = some old ∧ { old with activity := a } = call := by
      simpa [Cache.setActivity, hcalls] using hcall
    exact hself old n hold hop htally

/-- A call is cancelled, and has nothing to report any more. -/
theorem abort (hr : c.Reported) (i : CallId) : (c.abort i).Reported := by
  rcases c.abort_cases i with ⟨hself, -⟩ | ⟨call, hcall, hlive⟩
  · rwa [hself]
  · have hj := journal_abort hcall hlive
    refine hr.of_others (i := i) (fun id hid => ⟨?_, ?_⟩) fun call' n hcall' hop htally => ?_
    · simp [calls_abort hcall hlive, Cache.setActivity, Ne.symm hid]
    · rw [claimsOf_append (c := c) (i := i) ((_ : List EntryId).map .abandon)
        (by rw [hj, List.map_map]; rfl), if_neg (Ne.symm hid), List.append_nil]
    · obtain rfl : { call with activity := .ended .aborted } = call' := by
        simpa [calls_abort hcall hlive, Cache.setActivity, hcall] using hcall'
      simp [Activity.tally?] at htally

theorem stopSweeper (hr : c.Reported) : c.stopSweeper.Reported := by
  have hnone : ({ c with sweeper := none } : Cache).Reported := hr
  rcases c.stopSweeper_cases with ⟨heq, -⟩ | ⟨s, id, -, -, heq⟩ <;> rw [heq]
  · exact hnone
  · exact hnone.abort id

/-- A call begins. It has claimed nothing before. -/
theorem start (hc : c.Sound) (hr : c.Reported) {r : Activity × Cache}
    (hp : Performs c.calls.length op (c, {}) r)
    (ht : op.Closing → Tallies c.calls.length 0 c r) :
    ({ r.2 with calls := r.2.calls ++ [⟨op, r.1⟩] } : Cache).Reported := by
  obtain ⟨hcalls, -, ds, -, hj⟩ := moves_frame hp.moves
  refine hr.of_others (i := c.calls.length) (fun id hid => ⟨?_, ?_⟩)
    fun call n hcall hop htally => ?_
  · rw [← hcalls] at hid
    rw [getElem?_append_of_ne _ hid, hcalls]
  · have hclaims : r.2.claimsOf id = c.claimsOf id := by
      rw [claimsOf_append _ hj, if_neg (Ne.symm hid), List.append_nil]
    exact hclaims
  · obtain rfl : ⟨op, r.1⟩ = call := by simpa [show r.2.calls = c.calls from hcalls] using hcall
    obtain ⟨n', htally', hsum⟩ := ht hop
    obtain rfl : n' = n := Option.some.inj (htally'.symm.trans htally)
    have hnone : c.claimsOf c.calls.length = [] := by
      refine List.eq_nil_iff_forall_not_mem.2 fun e he => ?_
      obtain ⟨call, hcall, -⟩ := hc.accounted _ _ (mem_claimsOf.1 he)
      simp at hcall
    rw [hnone, List.length_nil, Nat.add_zero, Nat.zero_add] at hsum
    exact hsum.symm

theorem call (hc : c.Sound) (hr : c.Reported) (op : Operation) : (c.call op).2.Reported := by
  by_cases hop : op = .shutdown
  · subst hop
    have hstop : c.stopSweeper.Sound :=
      (strides_stopSweeper (P := fun _ => True) (fun _ _ => trivial) hc.attuned).sound hc
    have hstart := start hstop hr.stopSweeper (performs_shutdown _ _) fun _ => tallies_closeAll _ _
    rwa [length_calls_stopSweeper] at hstart
  · refine start hc hr (performs_begin _ op hop c) fun hclosing => ?_
    have ht : Tallies c.calls.length 0 _ (begin c.calls.length c op) := tallies_begin hclosing
    rwa [if_neg hop] at ht

/-- A call that is not a closing one goes on. -/
theorem resume (hr : c.Reported) {r : Activity × Cache} (hp : Resumes i op (c, h) r)
    (hop : ∀ call, c.calls[i]? = some call → ¬call.operation.Closing) :
    (r.2.setActivity i r.1).Reported :=
  hr.setActivity hp.moves fun call _ hcall hclosing => absurd hclosing (hop call hcall)

/-- The service that a call has told to close is closed. -/
theorem serviceClosed (hc : c.Attuned) (hr : c.Reported) (i : CallId) :
    (c.serviceClosed i).Reported := by
  cases ha : c.activity? i with
  | none => rwa [Cache.serviceClosed, ha]
  | some a =>
    have heq : c.serviceClosed i =
        (afterClose i c a).2.setActivity i (afterClose i c a).1 := by rw [Cache.serviceClosed, ha]
    obtain ⟨call, hcall, rfl⟩ := activity?_eq_some_iff.1 ha
    by_cases hlive : ∀ r, call.activity ≠ .ended r
    · have hfit := hc.fits call (List.mem_of_getElem? hcall)
      rw [heq]
      refine hr.setActivity (performs_afterClose hfit hlive c).moves
        fun call' n hcall' hop htally => ?_
      obtain rfl : call = call' := Option.some.inj (hcall.symm.trans hcall')
      obtain ⟨n₀, hn₀⟩ := tally_of_closing hop hfit hlive
      obtain ⟨n', htally', hsum⟩ := tallies_afterClose hop hfit hn₀ c
      obtain rfl : n' = n := Option.some.inj (htally'.symm.trans htally)
      rw [hr i call n₀ hcall hop hn₀, Nat.add_comm] at hsum
      exact (Nat.add_left_cancel hsum).symm
    · obtain ⟨r, hend⟩ := not_forall_not.1 hlive
      rw [hend] at ha heq
      rwa [heq, show afterClose i c (.ended r) = (.ended r, c) from rfl, setActivity_self ha]

/-- Every step keeps the reports. -/
theorem step (hc : c.Sound) (hr : c.Reported) (ev : Event) : (c.step ev).Reported := by
  -- Constructions and those who wait for them are no business of a closing call.
  have hquiet : ∀ {i c'}, Goes Resumes c i c' →
      ((∀ key left phase, c.activity? i ≠ some (.getting key left phase)) → c' = c) →
      c'.Reported := by
    rintro i c' (rfl | ⟨call, r, hcall, -, hp, rfl⟩) hnot
    · exact hr
    · by_cases hop : call.operation.Closing
      · rw [hnot]
        · exact hr
        · intro key left phase ha
          obtain ⟨call', hcall', hact⟩ := activity?_eq_some_iff.1 ha
          obtain rfl : call = call' := Option.some.inj (hcall.symm.trans hcall')
          have hfit := hc.attuned.fits call (List.mem_of_getElem? hcall)
          exact not_closing_of_getting (hact ▸ hfit) hop
      · exact hr.resume hp fun call' hcall' =>
          Option.some.inj (hcall.symm.trans hcall') ▸ hop
  cases ev with
  | call op => exact hr.call hc op
  | serviceClosed i => exact hr.serviceClosed hc.attuned i
  | built i b =>
    refine hquiet (goes_built hc i b) fun hnot => ?_
    rw [Cache.step, built.eq_def]
    split
    · exact absurd ‹_› (hnot _ _ _)
    · rfl
  | wake i =>
    refine hquiet (goes_wake hc.attuned i).resumes fun hnot => ?_
    rw [Cache.step, wake.eq_def]
    split
    · exact absurd ‹_› (hnot _ _ _)
    · rfl
  | abort i => exact hr.abort i
  | spawnSweeper interval =>
    rw [Cache.step, spawnSweeper]
    split <;> exact hr.stopSweeper
  | tick =>
    rw [Cache.step, tick]
    split
    · split
      · exact hr.call hc .sweep
      · exact hr
    · exact hr
  | clock | sever | forward | world => exact hr
  | reorder rows =>
    rw [Cache.step, reorder]
    split <;> exact hr

end Reported

/-- What a closing call reports in any run is the number of entries that it has claimed. -/
theorem reported_run (ttl : Nat) (events : List Event) : ((new ttl).run events).Reported := by
  have hrun : ∀ (events : List Event) {c : Cache}, c.Sound → c.Reported →
      (c.run events).Reported := by
    intro events
    induction events with
    | nil => exact fun _ hr => hr
    | cons ev rest ih => exact fun hc hr => ih (hc.run [ev]) (hr.step hc ev)
  exact hrun events (.new ttl) (by simp [Reported, Cache.new])

end Cache

end ConnectionBroker
