import ConnectionBroker.Proofs.Cache.Outside

/-!
# What others do while a call goes on

A row that leaves the map is entered in the journal : as withdrawn on request, or as forgotten, and
then its slot has an outcome (`Registers.rows`). A call that somebody else's event finds in progress
stays where it is (`Elsewhere`, `elsewhere_step`), so whatever becomes of its slot meanwhile can be
read in what the others entered.
-/

namespace ConnectionBroker

namespace Cache

variable {id i w : CallId} {op : Operation} {c c' c'' : Cache} {h h' : Hand} {key : Fingerprint}
  {slot : SlotId} {call : Call} {ds ds' : List (CallId × Deed)} {ev : Event}

/-! ## Rows and the journal -/

/-- From one cache to the other these deeds are done, and they account for every row that goes. -/
structure Registers (c c' : Cache) (ds : List (CallId × Deed)) : Prop where
  journal : c'.journal = c.journal ++ ds
  rows : ∀ key slot, (key, slot) ∈ c.current → (key, slot) ∈ c'.current ∨
    ∃ d ∈ ds, d.2 = .withdraw key slot ∨ d.2 = .forget slot ∧ (c'.outcome? slot).isSome
  outcomes : ∀ slot, (c.outcome? slot).isSome → (c'.outcome? slot).isSome

namespace Registers

theorem of_rows (hj : c'.journal = c.journal ++ ds) (hrows : ∀ row ∈ c.current, row ∈ c'.current)
    (hout : ∀ slot, (c.outcome? slot).isSome → (c'.outcome? slot).isSome) : Registers c c' ds :=
  ⟨hj, fun _ _ hrow => .inl (hrows _ hrow), hout⟩

theorem of_same (hj : c'.journal = c.journal ++ ds) (hcur : c'.current = c.current)
    (hslots : c'.slots = c.slots) : Registers c c' ds :=
  .of_rows hj (fun _ hrow => hcur ▸ hrow) fun slot ho => by rwa [outcome?, hslots]

theorem refl (c : Cache) : Registers c c [] :=
  .of_same (by simp) rfl rfl

theorem trans (hl : Registers c c' ds) (hl' : Registers c' c'' ds') :
    Registers c c'' (ds ++ ds') where
  journal := by rw [hl'.journal, hl.journal, List.append_assoc]
  rows key slot hrow := by
    rcases hl.rows key slot hrow with hrow | ⟨d, hd, hgone⟩
    · refine (hl'.rows key slot hrow).imp_right ?_
      rintro ⟨d, hd, hgone⟩
      exact ⟨d, List.mem_append_right _ hd, hgone⟩
    · exact .inr ⟨d, List.mem_append_left _ hd,
        hgone.imp_right fun hf => ⟨hf.1, hl'.outcomes slot hf.2⟩⟩
  outcomes slot ho := hl'.outcomes slot (hl.outcomes slot ho)

/-- One row is taken out, and that is entered. -/
theorem of_split {pre post : List (Fingerprint × SlotId)}
    (hrow : c.current = pre ++ (key, slot) :: post) (hj : c'.journal = c.journal ++ ds)
    (hcur : c'.current = pre ++ post) (hslots : c'.slots = c.slots)
    (hgone : ∃ d ∈ ds, d.2 = .withdraw key slot ∨ d.2 = .forget slot ∧ (c.outcome? slot).isSome) :
    Registers c c' ds := by
  have hout : ∀ s, c'.outcome? s = c.outcome? s := fun s => by rw [outcome?, hslots, outcome?]
  refine ⟨hj, fun k s hmem => ?_, fun s ho => by rwa [hout]⟩
  rcases (mem_split_iff hrow).1 hmem with heq | hmem
  · obtain ⟨rfl, rfl⟩ := Prod.mk.inj heq
    simp only [hout]
    exact .inr hgone
  · exact .inl (hcur ▸ hmem)

theorem updateSlot (hj : c'.journal = c.journal ++ ds) (slot : SlotId) {f : Slot → Slot}
    (hcur : c'.current = c.current) (hslots : c'.slots = c.slots.modify slot f)
    (hf : ∀ s, s.outcome.isSome → (f s).outcome.isSome) : Registers c c' ds := by
  refine .of_rows hj (fun _ hrow => hcur ▸ hrow) fun s ho => ?_
  rw [outcome?, hslots, List.getElem?_modify]
  rw [outcome?] at ho
  split
  · cases hs : c.slots[s]? with
    | none => simp [hs] at ho
    | some s' =>
      rw [hs] at ho
      exact hf s' ho
  · simpa using ho

/-- A move enters the row that it takes out. -/
theorem move (hm : Move id op (c, h) (c', h')) :
    ∃ ds : List Deed, Registers c c' (ds.map (id, ·)) := by
  obtain ⟨-, -, ds, -, hj⟩ := move_frame hm
  cases hm with
  | round | claim | skip | promote | leave => exact ⟨ds, .of_same hj rfl rfl⟩
  | keep | touch => exact ⟨ds, .of_same hj (checkEntry_rows c _) (checkEntry_slots c _)⟩
  | @evict _ _ pre post key slot e entry hrow hready he hopen hstale =>
    refine ⟨[.claim e, .forget slot], .of_split hrow ?_ rfl (checkEntry_slots c _)
      ⟨(id, .forget slot), by simp, .inr ⟨rfl, by simp [ready?_eq_some_iff.1 hready]⟩⟩⟩
    obtain ⟨net, hnet, -⟩ := c.checkEntry_eq entry
    rw [hnet]
    exact List.append_assoc _ _ _
  | forget hrow ho hclosed =>
    exact ⟨[.forget _], .of_split hrow rfl rfl rfl ⟨_, List.mem_singleton_self _, .inr ⟨rfl, by
      simp [ho]⟩⟩⟩
  | withdraw hrow hop =>
    exact ⟨[.withdraw _ _], .of_split hrow rfl rfl rfl ⟨_, List.mem_singleton_self _, .inl rfl⟩⟩
  | @tell _ _ e rest hr hc =>
    obtain ⟨net, hnet⟩ := c.beginRelease_eq id e
    rw [hnet] at hj ⊢
    exact ⟨ds, .of_same hj rfl rfl⟩
  | @finish _ _ e hr =>
    obtain ⟨net, hnet⟩ := c.endRelease_eq id e
    rw [hnet] at hj ⊢
    exact ⟨ds, .of_same hj rfl rfl⟩
  | place hnone =>
    refine ⟨ds, .of_rows hj (fun row hrow => ?_) fun s ho => ?_⟩
    · rw [slotFor_of_none hnone]
      exact List.mem_append_left _ hrow
    · rwa [outcome?_slotFor hnone]
  | build | queue | panic => exact ⟨ds, .updateSlot hj _ rfl rfl fun _ ho => ho⟩
  | settle | fail => exact ⟨ds, .updateSlot hj _ rfl rfl fun _ _ => rfl⟩

theorem moves {s s' : Cache × Hand} (hm : Moves id op s s') :
    ∃ ds : List Deed, Registers s.1 s'.1 (ds.map (id, ·)) := by
  induction hm with
  | refl => exact ⟨[], .refl _⟩
  | tail _ hm ih =>
    obtain ⟨ds, hl⟩ := ih
    obtain ⟨ds', hl'⟩ := move hm
    exact ⟨ds ++ ds', by rw [List.map_append]; exact hl.trans hl'⟩

end Registers

/-! ## The call that stays where it is -/

/-- The call that an event moves on or cancels, if it is an event of one call. -/
def Event.subject? : Event → Option CallId
  | .serviceClosed id => some id
  | .built id _ => some id
  | .wake id => some id
  | .abort id => some id
  | _ => none

/-- What others do while a call stays where it is. -/
structure Elsewhere (c c' : Cache) (w : CallId) : Prop where
  call : c'.calls[w]? = c.calls[w]?
  deeds : ∃ ds, Registers c c' ds ∧ ∀ d ∈ ds, d.1 ≠ w

namespace Elsewhere

theorem of_same (hcalls : c'.calls = c.calls) (hj : c'.journal = c.journal)
    (hcur : c'.current.Perm c.current) (hslots : c'.slots = c.slots) : Elsewhere c c' w :=
  ⟨by rw [hcalls], [], .of_rows (by simp [hj]) (fun _ => hcur.mem_iff.2) fun slot ho => by
    rwa [outcome?, hslots], by simp⟩

theorem refl (c : Cache) (w : CallId) : Elsewhere c c w :=
  of_same rfl rfl (.refl _) rfl

theorem trans (he : Elsewhere c c' w) (he' : Elsewhere c' c'' w) : Elsewhere c c'' w := by
  obtain ⟨ds, hr, hds⟩ := he.deeds
  obtain ⟨ds', hr', hds'⟩ := he'.deeds
  exact ⟨he'.call.trans he.call, ds ++ ds', hr.trans hr', fun d hd =>
    (List.mem_append.1 hd).elim (hds d) (hds' d)⟩

theorem of_moves (hm : Moves i op (c, h) (c', h')) (hw : w ≠ i) : Elsewhere c c' w := by
  obtain ⟨ds, hr⟩ := Registers.moves hm
  refine ⟨by rw [show c'.calls = c.calls from (moves_frame hm).1], _, hr, fun d hd => ?_⟩
  obtain ⟨d', -, rfl⟩ := List.mem_map.1 hd
  exact hw.symm

theorem goes (hg : Goes Resumes c i c') (hw : w ≠ i) : Elsewhere c c' w := by
  rcases hg with rfl | ⟨call, r, -, -, hp, rfl⟩
  · exact .refl _ w
  · exact (of_moves hp.moves hw).trans
      ⟨by simp [setActivity, Ne.symm hw], [], .of_same (by simp [setActivity]) rfl rfl, by simp⟩

/-- Another call is cancelled. -/
theorem abort (c : Cache) (hw : w ≠ i) : Elsewhere c (c.abort i) w := by
  rcases c.abort_cases i with ⟨hself, -⟩ | ⟨call, hcall, hlive⟩
  · exact hself.symm ▸ .refl c w
  · obtain ⟨slots, hlet⟩ := letGo_eq i c call.activity
    obtain ⟨-, -, hout⟩ := letGo_views i c call.activity
    refine ⟨by simp [calls_abort hcall hlive, setActivity, Ne.symm hw], _,
      .of_rows (journal_abort hcall hlive) (fun row hrow => ?_) (fun slot ho => ?_),
      fun d hd => ?_⟩
    · rw [abort_of_call hcall hlive, hlet]
      exact hrow
    · rw [← hout] at ho
      rw [abort_of_call hcall hlive]
      exact ho
    · obtain ⟨e, -, rfl⟩ := List.mem_map.1 hd
      exact hw.symm

/-- Stopping the sweeper is nothing to a call that is no sweep. -/
theorem stopSweeper (hc : c.Attuned) (hcall : c.calls[w]? = some call)
    (hop : call.operation ≠ .sweep) : Elsewhere c c.stopSweeper w := by
  have hnone : Elsewhere c { c with sweeper := none } w := of_same rfl rfl (.refl _) rfl
  rcases c.stopSweeper_cases with ⟨heq, -⟩ | ⟨s, id, hs, hr, heq⟩ <;> rw [heq]
  · exact hnone
  · refine hnone.trans (abort _ ?_)
    rintro rfl
    obtain ⟨call', hcall', hsweep⟩ := hc.sweeps s w hs hr
    obtain rfl : call' = call := Option.some.inj (hcall'.symm.trans hcall)
    exact hop hsweep

/-- Another call begins. -/
theorem call_other (hc : c.Attuned) (hcall : c.calls[w]? = some call)
    (hop : call.operation ≠ .sweep) (op : Operation) : Elsewhere c (c.call op).2 w := by
  have hlt : w < c.calls.length := (List.getElem?_eq_some_iff.1 hcall).1
  have begun : ∀ {c₁ : Cache}, c₁.calls.length = c.calls.length →
      Performs c.calls.length op (c₁, {}) (begin c.calls.length c op) →
      Elsewhere c₁ (c.call op).2 w := by
    intro c₁ hlen hp
    have hcalls : (begin c.calls.length c op).2.calls = c₁.calls := (moves_frame hp.moves).1
    have hlt' : w < (begin c.calls.length c op).2.calls.length := by rwa [hcalls, hlen]
    exact (of_moves hp.moves (Nat.ne_of_lt hlt)).trans
      ⟨List.getElem?_append_left hlt', [], .of_same (by simp [Cache.call]) rfl rfl, by simp⟩
  by_cases hshut : op = .shutdown
  · subst hshut
    exact (stopSweeper hc hcall hop).trans
      (begun (length_calls_stopSweeper c) (performs_shutdown _ _))
  · exact begun rfl (performs_begin _ op hshut c)

end Elsewhere

/-- A call that has ended goes on no more. -/
theorem step_of_ended {res : Result} (ha : c.activity? w = some (.ended res))
    (hev : ev.subject? = some w) : c.step ev = c := by
  cases ev with
  | serviceClosed i =>
    obtain rfl := Option.some.inj hev
    simp [step, serviceClosed, ha, afterClose, setActivity_self ha]
  | built i b =>
    obtain rfl := Option.some.inj hev
    simp [step, built, ha]
  | wake i =>
    obtain rfl := Option.some.inj hev
    simp [step, wake, ha]
  | abort i =>
    obtain rfl := Option.some.inj hev
    exact abort_of_ended ha
  | _ => cases hev

/-- In the steps of others a call stays where it is, unless it is a sweep, which they may cancel. -/
theorem elsewhere_step (hc : c.Sound) (hcall : c.calls[w]? = some call)
    (hop : call.operation ≠ .sweep) (hev : ev.subject? ≠ some w) :
    Elsewhere c (c.step ev) w := by
  have hne : ∀ {i}, ev.subject? = some i → w ≠ i := by
    rintro i hi rfl
    exact hev hi
  cases ev with
  | call op' => exact .call_other hc.attuned hcall hop op'
  | serviceClosed i => exact .goes (goes_serviceClosed hc.attuned i).resumes (hne rfl)
  | built i b => exact .goes (goes_built hc i b) (hne rfl)
  | wake i => exact .goes (goes_wake hc.attuned i).resumes (hne rfl)
  | abort i => exact .abort c (hne rfl)
  | spawnSweeper interval =>
    rw [step, spawnSweeper]
    split
    · exact .stopSweeper hc.attuned hcall hop
    · exact (Elsewhere.stopSweeper hc.attuned hcall hop).trans (.of_same rfl rfl (.refl _) rfl)
  | tick =>
    rw [step, tick]
    split
    · split
      · exact (Elsewhere.call_other hc.attuned hcall hop .sweep).trans
          (.of_same rfl rfl (.refl _) rfl)
      · exact .refl c w
    · exact .refl c w
  | clock | sever | forward | world => exact .of_same rfl rfl (.refl _) rfl
  | reorder rows =>
    rw [step, reorder]
    split
    · exact .of_same rfl rfl (List.isPerm_iff.1 ‹_›) rfl
    · exact .refl c w

end Cache

end ConnectionBroker
