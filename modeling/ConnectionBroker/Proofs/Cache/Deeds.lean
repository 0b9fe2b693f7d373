import ConnectionBroker.Proofs.Cache.Run

/-!
# The account of an entry

The journal has, for each entry, what was done to it and by whom (`Cache.deedsOf`). Nothing is done
to an entry before its teardown is claimed. Then one call, the one that claimed it, tells its
service to close, waits until it is closed and closes its hop (`released`), unless it is cancelled
in between. `Account` says how far the account of every entry is, by what the calls have in hand,
and `kept_account` that every move and every cancelled call keep it.
-/

namespace ConnectionBroker

namespace Cache

variable {id : CallId} {op : Operation} {c c' : Cache} {h h' : Hand} {H H' : CallId → Hand}
  {e i : EntryId}

/-- The teardown of an entry is claimed. -/
def isClosed (c : Cache) (e : EntryId) : Bool :=
  c.entries[e]?.any (·.closed)

/-- The deeds of a release, from the claim to the end. -/
def released (id : CallId) (e : EntryId) : List (CallId × Deed) :=
  [(id, .claim e), (id, .tellService e), (id, .serviceClosed e), (id, .closeHop e)]

theorem isClosed_eq_true_iff :
    c.isClosed e = true ↔ ∃ entry, c.entries[e]? = some entry ∧ entry.closed = true := by
  unfold isClosed
  cases c.entries[e]? <;> simp

theorem isClosed_eq_false {entry : Entry} (he : c.entries[e]? = some entry)
    (hopen : entry.closed = false) : c.isClosed e = false := by
  simp [isClosed, he, hopen]

theorem isClosed_congr (h : c'.entries = c.entries) : c'.isClosed e = c.isClosed e := by
  simp [isClosed, h]

theorem isClosed_setEntry {old : Entry} (he : c.entries[e]? = some old) (entry : Entry)
    (i : EntryId) :
    (c.setEntry e entry).isClosed i = if i = e then entry.closed else c.isClosed i := by
  obtain ⟨hlt, -⟩ := List.getElem?_eq_some_iff.1 he
  unfold isClosed setEntry
  rw [List.getElem?_set]
  by_cases hi : i = e
  · subst hi
    simp [hlt]
  · simp [hi, Ne.symm hi]

/-- A new entry is not closed. -/
theorem isClosed_append {entry : Entry} (hopen : entry.closed = false) (i : EntryId) :
    ({ c with entries := c.entries ++ [entry] } : Cache).isClosed i = c.isClosed i := by
  unfold isClosed
  by_cases hi : i = c.entries.length
  · subst hi
    simp [hopen]
  · rw [getElem?_append_of_ne _ hi]

theorem mem_deedsOf {d : CallId × Deed} :
    d ∈ c.deedsOf e ↔ d ∈ c.journal ∧ d.2.about = some e := by
  simp [deedsOf]

/-- What is entered in the journal is added to the accounts of the entries that it is about. -/
theorem deedsOf_of_append {js : List (CallId × Deed)} (hj : c'.journal = c.journal ++ js) :
    c'.deedsOf e = c.deedsOf e ++ js.filter fun d => d.2.about == some e := by
  rw [deedsOf, hj, List.filter_append]
  rfl

/-- Deeds about one entry are added to its account. -/
theorem deedsOf_add {js : List (CallId × Deed)} (hj : c'.journal = c.journal ++ js)
    (habout : ∀ d ∈ js, d.2.about = some e) (i : EntryId) :
    c'.deedsOf i = c.deedsOf i ++ if i = e then js else [] := by
  rw [deedsOf_of_append hj]
  congr 1
  split
  · subst i
    exact List.filter_eq_self.2 fun d hd => beq_iff_eq.2 (habout d hd)
  · rename_i hi
    refine List.filter_eq_nil_iff.2 fun d hd heq => hi ?_
    exact Option.some.inj ((beq_iff_eq.1 heq).symm.trans (habout d hd))

/-- Deeds about no entry are added to no account. -/
theorem deedsOf_skip {js : List (CallId × Deed)} (hj : c'.journal = c.journal ++ js)
    (habout : ∀ d ∈ js, d.2.about = none) (i : EntryId) : c'.deedsOf i = c.deedsOf i := by
  rw [deedsOf_of_append hj, List.filter_eq_nil_iff.2, List.append_nil]
  intro d hd
  simp [habout d hd]

/-- How far the account of every entry is. -/
structure Account (c : Cache) (H : CallId → Hand) : Prop where
  /-- An entry's account begins when it is claimed. -/
  closed_iff : ∀ e, c.isClosed e = true ↔ c.deedsOf e ≠ []
  /-- A call has told the service of the entry that it releases to close, and no more. -/
  releasing : ∀ id e, (H id).releasing = some e →
    c.deedsOf e = [(id, .claim e), (id, .tellService e)]
  /-- A call has claimed the entries that it is to release, and no more. -/
  claimed : ∀ id e, e ∈ (H id).claimed → c.deedsOf e = [(id, .claim e)]
  claimed_nodup : ∀ id, (H id).claimed.Nodup
  /-- A claimed entry is in a call's hands, or released, or abandoned. -/
  stage : ∀ e, c.deedsOf e ≠ [] → (∃ id, e ∈ (H id).claimed) ∨
    (∃ id, (H id).releasing = some e) ∨ (∃ id, c.deedsOf e = released id e) ∨
      ∃ id, (id, .abandon e) ∈ c.deedsOf e

namespace Account

theorem new (ttl : Nat) : Account (new ttl) (new ttl).hands where
  closed_iff e := by simp [isClosed, deedsOf, Cache.new]
  releasing id e hr := by simp [hands, activity?, Cache.new] at hr
  claimed id e hc := by simp [hands, activity?, Cache.new] at hc
  claimed_nodup id := by simp [hands, activity?, Cache.new]
  stage e he := by simp [deedsOf, Cache.new] at he

/-- Nothing is done to an entry before it is closed. -/
theorem deedsOf_eq_nil (ha : Account c H) (hopen : c.isClosed e = false) : c.deedsOf e = [] := by
  by_contra hne
  rw [(ha.closed_iff e).2 hne] at hopen
  cases hopen

/-- Nothing is done to an entry that is not built yet. -/
theorem deedsOf_length (ha : Account c H) : c.deedsOf c.entries.length = [] :=
  ha.deedsOf_eq_nil (by simp [isClosed])

/-- Nobody has an open entry in hand. -/
theorem not_held (ha : Account c H) (hopen : c.isClosed e = false) (i : CallId) :
    e ∉ (H i).claimed ∧ (H i).releasing ≠ some e := by
  have hnil : c.deedsOf e = [] := ha.deedsOf_eq_nil hopen
  refine ⟨fun hc => ?_, fun hr => ?_⟩
  · rw [ha.claimed i e hc] at hnil
    cases hnil
  · rw [ha.releasing i e hr] at hnil
    cases hnil

/-- An entry is in the hands of the call that claimed it. -/
theorem not_held_of_deeds (ha : Account c H) {ds : List (CallId × Deed)}
    (hd : c.deedsOf e = (id, .claim e) :: ds) {i : CallId} (hi : i ≠ id) :
    e ∉ (H i).claimed ∧ (H i).releasing ≠ some e := by
  refine ⟨fun hc => hi ?_, fun hr => hi ?_⟩
  · rw [ha.claimed i e hc] at hd
    exact (Prod.mk.inj (List.cons.inj hd).1).1
  · rw [ha.releasing i e hr] at hd
    exact (Prod.mk.inj (List.cons.inj hd).1).1

/-- One call takes some entries a step further, and all the others stay where they are. -/
theorem advance (ha : Account c (Function.update H id h)) (P : EntryId → Prop)
    (hsame : ∀ e, ¬P e → c'.isClosed e = c.isClosed e ∧ c'.deedsOf e = c.deedsOf e)
    (hothers : ∀ e, P e → ∀ i, i ≠ id → e ∉ (Function.update H id h i).claimed ∧
      (Function.update H id h i).releasing ≠ some e)
    (hclaimed : ∀ e, ¬P e → (e ∈ h'.claimed ↔ e ∈ h.claimed))
    (hreleasing : ∀ e, ¬P e → (h'.releasing = some e ↔ h.releasing = some e))
    (hnodup : h'.claimed.Nodup)
    (hc : ∀ e, P e → e ∈ h'.claimed → c'.deedsOf e = [(id, .claim e)])
    (hr : ∀ e, P e → h'.releasing = some e →
      c'.deedsOf e = [(id, .claim e), (id, .tellService e)])
    (hstage : ∀ e, P e → c'.isClosed e = true ∧ c'.deedsOf e ≠ [] ∧
      (e ∈ h'.claimed ∨ h'.releasing = some e ∨ (∃ i, c'.deedsOf e = released i e) ∨
        ∃ i, (i, .abandon e) ∈ c'.deedsOf e)) :
    Account c' (Function.update H id h') := by
  have hid : Function.update H id h' id = h' := Function.update_self ..
  have hother : ∀ {i}, i ≠ id → Function.update H id h' i = Function.update H id h i := by
    intro i hi
    rw [Function.update_of_ne hi, Function.update_of_ne hi]
  refine ⟨fun e => ?_, fun i e hi => ?_, fun i e hi => ?_, fun i => ?_, fun e he => ?_⟩
  · by_cases hP : P e
    · exact iff_of_true (hstage e hP).1 (hstage e hP).2.1
    · rw [(hsame e hP).1, (hsame e hP).2]
      exact ha.closed_iff e
  · by_cases hP : P e
    · by_cases hne : i = id
      · subst hne
        exact hr e hP (hid ▸ hi)
      · exact absurd (hother hne ▸ hi) (hothers e hP i hne).2
    · rw [(hsame e hP).2]
      exact ha.releasing i e
        (update_imp (P := fun h => h.releasing = some e) (hreleasing e hP).1 hi)
  · by_cases hP : P e
    · by_cases hne : i = id
      · subst hne
        exact hc e hP (hid ▸ hi)
      · exact absurd (hother hne ▸ hi) (hothers e hP i hne).1
    · rw [(hsame e hP).2]
      exact ha.claimed i e (update_imp (P := fun h => e ∈ h.claimed) (hclaimed e hP).1 hi)
  · by_cases hne : i = id
    · subst hne
      rwa [hid]
    · rw [hother hne]
      exact ha.claimed_nodup i
  · by_cases hP : P e
    · obtain ⟨-, -, hcl | hre | hrest⟩ := hstage e hP
      · exact .inl ⟨id, hid.symm ▸ hcl⟩
      · exact .inr (.inl ⟨id, hid.symm ▸ hre⟩)
      · exact .inr (.inr hrest)
    · rw [(hsame e hP).2] at he ⊢
      refine (ha.stage e he).imp ?_ (Or.imp_left ?_)
      · rintro ⟨i, hi⟩
        exact ⟨i, update_imp (P := fun h => e ∈ h.claimed) (hclaimed e hP).2 hi⟩
      · rintro ⟨i, hi⟩
        exact ⟨i, update_imp (P := fun h => h.releasing = some e) (hreleasing e hP).2 hi⟩

/-- Nothing changes for the entries. -/
theorem same (ha : Account c (Function.update H id h))
    (hclosed : ∀ e, c'.isClosed e = c.isClosed e) (hdeeds : ∀ e, c'.deedsOf e = c.deedsOf e)
    (hc : h'.claimed = h.claimed) (hr : h'.releasing = h.releasing) :
    Account c' (Function.update H id h') := by
  have hnodup := ha.claimed_nodup id
  rw [Function.update_self, ← hc] at hnodup
  exact ha.advance (fun _ => False) (fun e _ => ⟨hclosed e, hdeeds e⟩) (fun _ hP => hP.elim)
    (fun e _ => by rw [hc]) (fun e _ => by rw [hr]) hnodup (fun _ hP => hP.elim)
    (fun _ hP => hP.elim) fun _ hP => hP.elim

/-- A call claims an open entry. -/
theorem claim (ha : Account c (Function.update H id h)) (hopen : c.isClosed e = false)
    (hclosed : ∀ i, c'.isClosed i = if i = e then true else c.isClosed i)
    (hdeeds : ∀ i, c'.deedsOf i = c.deedsOf i ++ if i = e then [(id, .claim e)] else []) :
    Account c' (Function.update H id { h with claimed := h.claimed ++ [e] }) := by
  have hnil : c.deedsOf e = [] := ha.deedsOf_eq_nil hopen
  have hdeed : c'.deedsOf e = [(id, .claim e)] := by simp [hdeeds, hnil]
  have hmine := ha.not_held hopen id
  rw [Function.update_self] at hmine
  refine ha.advance (· = e) (fun i hi => ⟨by simp [hclosed, hi], by simp [hdeeds, hi]⟩)
    (by rintro _ rfl i -; exact ha.not_held hopen i) (fun i hi => by simp [hi])
    (fun i _ => Iff.rfl) ?_ (by rintro _ rfl -; exact hdeed)
    (by rintro _ rfl hr; exact absurd hr hmine.2) ?_
  · rw [List.nodup_append]
    have hnodup := ha.claimed_nodup id
    rw [Function.update_self] at hnodup
    refine ⟨hnodup, by simp, fun i hi j hj => ?_⟩
    rintro rfl
    obtain rfl := List.mem_singleton.1 hj
    exact hmine.1 hi
  · rintro _ rfl
    exact ⟨by simp [hclosed], by simp [hdeed], .inl (by simp)⟩

/-- A call begins to release the first of the entries that it has claimed. -/
theorem tell (ha : Account c (Function.update H id h)) {rest : List EntryId}
    (hr : h.releasing = none) (hc : h.claimed = e :: rest)
    (hclosed : ∀ i, c'.isClosed i = c.isClosed i)
    (hdeeds : ∀ i, c'.deedsOf i = c.deedsOf i ++ if i = e then [(id, .tellService e)] else []) :
    Account c' (Function.update H id { h with releasing := some e, claimed := rest }) := by
  have hclaim : c.deedsOf e = [(id, .claim e)] := ha.claimed id e (by simp [hc])
  have hdeed : c'.deedsOf e = [(id, .claim e), (id, .tellService e)] := by simp [hdeeds, hclaim]
  have hnodup := ha.claimed_nodup id
  rw [Function.update_self, hc, List.nodup_cons] at hnodup
  refine ha.advance (· = e) (fun i hi => ⟨hclosed i, by simp [hdeeds, hi]⟩)
    (by rintro _ rfl i hi; exact ha.not_held_of_deeds hclaim hi) (fun i hi => by simp [hc, hi])
    (fun i hi => by simp [hr, Ne.symm hi]) hnodup.2
    (by rintro _ rfl he; exact absurd he hnodup.1) (by rintro _ rfl -; exact hdeed) ?_
  rintro _ rfl
  refine ⟨?_, by simp [hdeed], .inr (.inl rfl)⟩
  rw [hclosed]
  exact (ha.closed_iff _).2 (by simp [hclaim])

/-- A call ends a release. -/
theorem finish (ha : Account c (Function.update H id h)) (hr : h.releasing = some e)
    (hclosed : ∀ i, c'.isClosed i = c.isClosed i)
    (hdeeds : ∀ i, c'.deedsOf i =
      c.deedsOf i ++ if i = e then [(id, .serviceClosed e), (id, .closeHop e)] else []) :
    Account c' (Function.update H id { h with releasing := none }) := by
  have htold : c.deedsOf e = [(id, .claim e), (id, .tellService e)] :=
    ha.releasing id e (by simp [hr])
  have hdeed : c'.deedsOf e = released id e := by simp [hdeeds, htold, released]
  have hnodup := ha.claimed_nodup id
  rw [Function.update_self] at hnodup
  have hfree : e ∉ h.claimed := by
    intro hc
    have hclaim := ha.claimed id e (by simpa using hc)
    rw [htold] at hclaim
    simp at hclaim
  refine ha.advance (· = e) (fun i hi => ⟨hclosed i, by simp [hdeeds, hi]⟩)
    (by rintro _ rfl i hi; exact ha.not_held_of_deeds htold hi) (fun i _ => Iff.rfl)
    (fun i hi => by simp [hr, Ne.symm hi]) hnodup (by rintro _ rfl he; exact absurd he hfree)
    (by rintro _ rfl he; cases he) ?_
  rintro _ rfl
  refine ⟨?_, by simp [hdeed, released], .inr (.inr (.inl ⟨id, hdeed⟩))⟩
  rw [hclosed]
  exact (ha.closed_iff _).2 (by simp [htold])

/-- Every move keeps the accounts. -/
theorem move (ha : Account c (Function.update H id h)) (hm : Move id op (c, h) (c', h')) :
    Account c' (Function.update H id h') := by
  cases hm with
  | round | forget | withdraw | promote =>
    exact ha.same (fun _ => rfl) (deedsOf_skip rfl (by simp [Deed.about])) rfl rfl
  | @keep _ _ e entry he =>
    obtain ⟨net, hnet, -⟩ := c.checkEntry_eq entry
    rw [hnet]
    exact ha.same (fun _ => rfl) (fun _ => rfl) rfl rfl
  | @touch _ _ e entry he hopen hfresh =>
    obtain ⟨net, hnet, -⟩ := c.checkEntry_eq entry
    rw [hnet]
    refine ha.same (fun i => ?_) (fun _ => rfl) rfl rfl
    rw [isClosed_setEntry (c := { c with net }) he]
    split
    · subst i
      exact (isClosed_eq_false he hopen).symm ▸ hopen
    · rfl
  | @evict _ _ pre post key slot e entry hrow hready he hopen hstale =>
    obtain ⟨net, hnet, -⟩ := c.checkEntry_eq entry
    rw [hnet]
    have hclaim : Account (({ c with net } : Cache).setEntry e { entry with closed := true }
        |>.note id (.claim e)) (Function.update H id { h with claimed := h.claimed ++ [e] }) :=
      ha.claim (isClosed_eq_false he hopen) (isClosed_setEntry (c := { c with net }) he _)
        (deedsOf_add rfl (by simp [Deed.about]))
    exact hclaim.same (fun _ => rfl) (deedsOf_skip rfl (by simp [Deed.about])) rfl rfl
  | @claim _ _ slot e entry hslot hready he hopen =>
    exact ha.claim (isClosed_eq_false he hopen) (isClosed_setEntry he _)
      (deedsOf_add rfl (by simp [Deed.about]))
  | @tell _ _ e rest hr hc =>
    obtain ⟨net, hnet⟩ := c.beginRelease_eq id e
    rw [hnet]
    exact ha.tell hr hc (fun _ => rfl) (deedsOf_add rfl (by simp [Deed.about]))
  | @finish _ _ e hr =>
    obtain ⟨net, hnet⟩ := c.endRelease_eq id e
    rw [hnet]
    exact ha.finish hr (fun _ => rfl) (deedsOf_add rfl (by simp [Deed.about]))
  | place hnone =>
    rw [slotFor_of_none hnone]
    exact ha.same (fun _ => rfl) (fun _ => rfl) rfl rfl
  | build => exact ha.same (fun _ => rfl) (deedsOf_skip rfl (by simp [Deed.about])) rfl rfl
  | settle => exact ha.same (isClosed_append rfl) (fun _ => rfl) rfl rfl
  | skip | queue | leave | fail | panic => exact ha.same (fun _ => rfl) (fun _ => rfl) rfl rfl

/-- A cancelled call abandons what it had claimed. -/
theorem cancel {call : Call} (ha : Account c c.hands) (hcall : c.calls[id]? = some call) :
    Account ((letGo id c call.activity).abandon id
      (call.activity.releasing?.toList ++ call.activity.claimed))
        (Function.update c.hands id {}) := by
  obtain ⟨slots, hlet⟩ := letGo_eq id c call.activity
  rw [hlet]
  set held := call.activity.releasing?.toList ++ call.activity.claimed with hheld
  have hbegun : ∀ e ∈ held, ∃ ds, c.deedsOf e = (id, .claim e) :: ds := by
    intro e he
    rcases List.mem_append.1 he with hr | hc
    · refine ⟨_, ha.releasing id e ?_⟩
      rw [hands_of_call hcall]
      exact Option.mem_toList.1 hr
    · refine ⟨_, ha.claimed id e ?_⟩
      rwa [hands_of_call hcall]
  have hdeeds : ∀ e ∉ held,
      (({ c with slots } : Cache).abandon id held).deedsOf e = c.deedsOf e := by
    intro e he
    rw [deedsOf_of_append (c := c) rfl, List.filter_eq_nil_iff.2, List.append_nil]
    intro d hd heq
    obtain ⟨i, hi, rfl⟩ := List.mem_map.1 hd
    obtain rfl : i = e := Option.some.inj (beq_iff_eq.1 heq)
    exact he hi
  have habandon : ∀ e ∈ held,
      (id, .abandon e) ∈ (({ c with slots } : Cache).abandon id held).deedsOf e := by
    intro e he
    refine mem_deedsOf.2 ⟨List.mem_append_right _ ?_, rfl⟩
    exact List.mem_map.2 ⟨e, he, rfl⟩
  rw [← update_hands_of_call hcall] at ha
  refine ha.advance (· ∈ held) (fun e he => ⟨rfl, hdeeds e he⟩) (fun e he i hi => ?_)
    (fun e he => ?_) (fun e he => ?_) List.nodup_nil (fun e _ hc => absurd hc List.not_mem_nil)
    (fun e _ hr => by cases hr) fun e he => ?_
  · obtain ⟨ds, hd⟩ := hbegun e he
    exact ha.not_held_of_deeds hd hi
  · exact iff_of_false List.not_mem_nil fun hc => he (List.mem_append_right _ hc)
  · refine iff_of_false (by simp) fun hr => he (List.mem_append_left _ ?_)
    exact Option.mem_toList.2 hr
  · obtain ⟨ds, hd⟩ := hbegun e he
    refine ⟨(ha.closed_iff e).2 (by simp [hd]), List.ne_nil_of_mem (habandon e he), ?_⟩
    exact .inr (.inr (.inr ⟨id, habandon e he⟩))

theorem congr (ha : Account c H) (hentries : c'.entries = c.entries)
    (hj : c'.journal = c.journal) : Account c' H := by
  have hdeeds : ∀ e, c'.deedsOf e = c.deedsOf e := fun e => by simp only [deedsOf, hj]
  refine ⟨fun e => ?_, fun i e hi => ?_, fun i e hi => ?_, ha.claimed_nodup, fun e he => ?_⟩
  · rw [isClosed_congr hentries, hdeeds]
    exact ha.closed_iff e
  · rw [hdeeds]
    exact ha.releasing i e hi
  · rw [hdeeds]
    exact ha.claimed i e hi
  · rw [hdeeds] at he ⊢
    exact ha.stage e he

end Account

/-- Moves and cancelled calls keep the accounts. -/
theorem kept_account (P : Call → Prop) : Kept P Account where
  move hm ha := ha.move hm
  cancel hcall _ _ ha := ha.cancel hcall
  frame _ _ hentries hj ha := ha.congr hentries hj

end Cache

end ConnectionBroker
