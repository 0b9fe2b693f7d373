import ConnectionBroker.Proofs.Cache.Run

/-!
# The entries of the map are open

No entry is in two slots, and a slot that a call has taken out of the map is not in it any more
(`Filed`). So who claims an entry outside the map leaves those of the map open, and who claims one
of the map takes its row out. Cancelling a call changes nothing of this, hence an entry of the map
is open after every run (`filed_run`).
-/

namespace ConnectionBroker

namespace Cache

variable {id : CallId} {op : Operation} {c c' : Cache} {h h' : Hand} {H H' : CallId → Hand}
  {key : Fingerprint} {slot : SlotId} {e : EntryId}

/-! ## Open entries -/

theorem isOpen_congr (h : c'.entries = c.entries) : c'.isOpen e = c.isOpen e := by
  simp [isOpen, h]

theorem isOpen_setEntry {old : Entry} (he : c.entries[e]? = some old) (entry : Entry)
    (i : EntryId) :
    (c.setEntry e entry).isOpen i = if i = e then !entry.closed else c.isOpen i := by
  obtain ⟨hlt, -⟩ := List.getElem?_eq_some_iff.1 he
  unfold isOpen setEntry
  rw [List.getElem?_set]
  by_cases hi : i = e
  · subst hi
    simp [hlt]
  · simp [hi, Ne.symm hi]

theorem isOpen_append (c : Cache) (entry : Entry) (i : EntryId) :
    ({ c with entries := c.entries ++ [entry] } : Cache).isOpen i =
      if i = c.entries.length then !entry.closed else c.isOpen i := by
  unfold isOpen
  by_cases hi : i = c.entries.length
  · subst hi
    simp
  · rw [getElem?_append_of_ne _ hi, if_neg hi]

/-- Closing an entry opens none. -/
theorem isOpen_of_closed (hset : ∀ i, c'.isOpen i = if i = e then !true else c.isOpen i)
    {i : EntryId} (hi : c'.isOpen i = true) : c.isOpen i = true := by
  rw [hset] at hi
  split at hi
  · cases hi
  · exact hi

/-- A slot outside the map, where its key has another one, is in no row. -/
theorem Guarded.not_mem_of_outside (hg : Guarded c H) (hk : c.slotKey? slot = some key)
    {s : SlotId} (hs : s ∈ c.outside key slot) :
    s < c.slots.length ∧ ∀ k, (k, s) ∉ c.current := by
  unfold outside at hs
  split at hs
  · cases hs
  · rename_i hcur
    obtain rfl := List.mem_singleton.1 hs
    refine ⟨lt_of_slotKey? hk, fun k hrow => hcur ?_⟩
    obtain rfl : key = k := Option.some.inj (hk.symm.trans (hg.row_key k s hrow))
    exact hg.isCurrent_of_mem hrow

/-- A row that goes leaves no row with its slot behind. -/
theorem Guarded.not_mem_of_split (hg : Guarded c H) {pre post : List (Fingerprint × SlotId)}
    (hrow : c.current = pre ++ (key, slot) :: post) : ∀ k, (k, slot) ∉ pre ++ post := by
  intro k hk
  have hself : (key, slot) ∈ c.current := (mem_split_iff hrow).2 (.inl rfl)
  obtain rfl := hg.row_unique ((mem_split_iff hrow).2 (.inr hk)) hself
  exact Cache.not_mem_of_split hg.keys hrow slot hk

/-- What a cancelled call does to its slot changes no key and no outcome. -/
theorem letGo_views (id : CallId) (c : Cache) (a : Activity) :
    (letGo id c a).slots.length = c.slots.length ∧
      (∀ s, (letGo id c a).slotKey? s = c.slotKey? s) ∧
        ∀ s, (letGo id c a).outcome? s = c.outcome? s := by
  have hupdate : ∀ (slot : SlotId) (f : Slot → Slot), (∀ s, (f s).key = s.key) →
      (∀ s, (f s).outcome = s.outcome) → (c.updateSlot slot f).slots.length = c.slots.length ∧
        (∀ s, (c.updateSlot slot f).slotKey? s = c.slotKey? s) ∧
          ∀ s, (c.updateSlot slot f).outcome? s = c.outcome? s := fun slot f hkey hout =>
    ⟨length_slots_updateSlot .., slotKey?_updateSlot hkey, outcome?_updateSlot hout⟩
  unfold Cache.letGo
  split
  · exact hupdate _ _ (fun _ => rfl) fun _ => rfl
  · split
    · exact hupdate _ _ (fun _ => rfl) fun _ => rfl
    · exact hupdate _ _ (fun _ => rfl) fun _ => rfl
  · exact ⟨rfl, fun _ => rfl, fun _ => rfl⟩

/-! ## Where entries are filed -/

/-- The slots that hold entries, in the map and taken out of it. -/
structure Filed (c : Cache) (H : CallId → Hand) : Prop where
  /-- A slot holds an entry that is there. -/
  ready_lt : ∀ slot e, c.ready? slot = some e → e < c.entries.length
  /-- No entry is in two slots. -/
  ready_inj : ∀ slot slot' e, c.ready? slot = some e → c.ready? slot' = some e → slot = slot'
  /-- An entry of the map is open. -/
  cached_open : ∀ key slot e, (key, slot) ∈ c.current → c.ready? slot = some e →
    c.isOpen e = true
  /-- A drained slot is not in the map. -/
  drained_out : ∀ id slot, slot ∈ (H id).drained →
    slot < c.slots.length ∧ ∀ key, (key, slot) ∉ c.current

namespace Filed

theorem new (ttl : Nat) : Filed (new ttl) (new ttl).hands where
  ready_lt slot e hr := by simp [ready?, outcome?, Cache.new] at hr
  ready_inj slot slot' e hr := by simp [ready?, outcome?, Cache.new] at hr
  cached_open key slot e hrow := by simp [Cache.new] at hrow
  drained_out id slot hs := by simp [hands, activity?, Cache.new] at hs

/-- A call changes no slot and makes no entry : it closes entries that are not in the map and takes
rows out. -/
theorem of_move (hf : Filed c (Function.update H id h)) (hlen : c'.slots.length = c.slots.length)
    (hentries : c'.entries.length = c.entries.length) (hready : ∀ s, c'.ready? s = c.ready? s)
    (hrows : ∀ row ∈ c'.current, row ∈ c.current)
    (hcached : ∀ k s e, (k, s) ∈ c'.current → c.ready? s = some e → c'.isOpen e = true)
    (hout : ∀ s ∈ h'.drained, s ∈ h.drained ∨ (s < c.slots.length ∧ ∀ k, (k, s) ∉ c'.current)) :
    Filed c' (Function.update H id h') := by
  refine ⟨fun s e hr => ?_, fun s s' e hr hr' => ?_, fun k s e hrow hr => ?_, fun i s hs => ?_⟩
  · rw [hready] at hr
    exact hentries ▸ hf.ready_lt s e hr
  · rw [hready] at hr hr'
    exact hf.ready_inj s s' e hr hr'
  · rw [hready] at hr
    exact hcached k s e hrow hr
  · rw [hlen]
    have hold : s ∈ (Function.update H id h i).drained →
        s < c.slots.length ∧ ∀ k, (k, s) ∉ c'.current := fun hs =>
      (hf.drained_out i s hs).imp_right fun hno k hrow => hno k (hrows _ hrow)
    by_cases hi : i = id
    · subst hi
      rw [Function.update_self] at hs hold
      exact (hout s hs).elim hold fun h => h
    · rw [Function.update_of_ne hi] at hs hold
      exact hold hs

/-- A call leaves the rows and the entries alone. -/
theorem of_same_rows (hf : Filed c (Function.update H id h))
    (hlen : c'.slots.length = c.slots.length) (hentries : c'.entries.length = c.entries.length)
    (hready : ∀ s, c'.ready? s = c.ready? s) (hopen : ∀ e, c'.isOpen e = c.isOpen e)
    (hcur : c'.current = c.current)
    (hout : ∀ s ∈ h'.drained, s ∈ h.drained ∨ (s < c.slots.length ∧ ∀ k, (k, s) ∉ c.current)) :
    Filed c' (Function.update H id h') :=
  hf.of_move hlen hentries hready (fun _ hrow => hcur ▸ hrow)
    (fun k s e hrow hr => by rw [hopen]; exact hf.cached_open k s e (hcur ▸ hrow) hr)
    fun s hs => by rw [hcur]; exact hout s hs

/-- A row goes, and no entry but the one that it holds is closed. -/
theorem of_split (hg : Guarded c H') (hf : Filed c (Function.update H id h))
    {pre post : List (Fingerprint × SlotId)} (hrow : c.current = pre ++ (key, slot) :: post)
    (hcur : c'.current = pre ++ post) (hslots : c'.slots = c.slots)
    (hentries : c'.entries.length = c.entries.length)
    (hothers : ∀ e, c.ready? slot ≠ some e → c.isOpen e = true → c'.isOpen e = true)
    (hout : ∀ s ∈ h'.drained, s ∈ h.drained ∨ s = slot) :
    Filed c' (Function.update H id h') := by
  have hgone : ∀ k, (k, slot) ∉ c'.current := hcur ▸ hg.not_mem_of_split hrow
  have hmem : ∀ row ∈ c'.current, row ∈ c.current := fun row hk =>
    (mem_split_iff hrow).2 (.inr (hcur ▸ hk))
  refine hf.of_move (by rw [hslots]) hentries (fun s => ready?_congr (by simp [outcome?, hslots]))
    hmem (fun k s e hk hr => ?_) fun s hs => ?_
  · refine hothers e (fun hr' => ?_) (hf.cached_open k s e (hmem _ hk) hr)
    obtain rfl := hf.ready_inj s slot e hr hr'
    exact hgone k hk
  · refine (hout s hs).imp_right ?_
    rintro rfl
    exact ⟨lt_of_slotKey? (hg.row_key key s (by rw [hrow]; simp)), hgone⟩

theorem place (hf : Filed c H) (hnone : c.current.lookup key = none) :
    Filed (c.slotFor key).2 H := by
  have hready : ∀ s, (c.slotFor key).2.ready? s = c.ready? s := fun s =>
    ready?_congr (outcome?_slotFor hnone s)
  have hmem : ∀ {k s}, s < c.slots.length →
      ((k, s) ∈ (c.slotFor key).2.current ↔ (k, s) ∈ c.current) := by
    intro k s hs
    simp [slotFor_of_none hnone, Nat.ne_of_lt hs]
  have hentries : (c.slotFor key).2.entries = c.entries := by rw [slotFor_of_none hnone]
  refine ⟨fun s e hr => ?_, fun s s' e hr hr' => ?_, fun k s e hrow hr => ?_, fun i s hs => ?_⟩
  · rw [hready] at hr
    rw [hentries]
    exact hf.ready_lt s e hr
  · rw [hready] at hr hr'
    exact hf.ready_inj s s' e hr hr'
  · rw [hready] at hr
    rw [isOpen_congr hentries]
    exact hf.cached_open k s e ((hmem (lt_of_outcome? (ready?_eq_some_iff.1 hr))).1 hrow) hr
  · obtain ⟨hlt, hno⟩ := hf.drained_out i s hs
    refine ⟨?_, fun k hrow => hno k ((hmem hlt).1 hrow)⟩
    rw [slotFor_of_none hnone, List.length_append]
    exact Nat.lt_succ_of_lt hlt

/-- A new entry is in the slot where it was built, and in no other. -/
theorem ready?_settle (hf : Filed c H) (hslot : slot < c.slots.length) {entry : Entry} {s : SlotId}
    (hr : (({ c with entries := c.entries ++ [entry] } : Cache).conclude slot
      (.ready c.entries.length)).ready? s = some e) :
    s = slot ∧ e = c.entries.length ∨ e ≠ c.entries.length ∧ c.ready? s = some e := by
  rw [ready?_conclude (c := { c with entries := c.entries ++ [entry] }) hslot] at hr
  split at hr
  · exact .inl ⟨‹_›, (Option.some.inj hr).symm⟩
  · exact .inr ⟨Nat.ne_of_lt (hf.ready_lt s e hr), hr⟩

theorem settle (hg : Guarded c (Function.update H id h)) (hf : Filed c (Function.update H id h))
    (hb : h.building = some (key, slot)) (r : Resource) :
    Filed ({ c with entries := c.entries ++ [Entry.fresh key r c.net.now c.ttl] }.conclude slot
        (.ready c.entries.length))
      (Function.update H id
        { h with building := none, drained := c.outside key slot ++ h.drained }) := by
  obtain ⟨hk, -, -⟩ := hg.building id key slot (by rwa [Function.update_self])
  have hlt := lt_of_slotKey? hk
  set c' :=
    ({ c with entries := c.entries ++ [Entry.fresh key r c.net.now c.ttl] } : Cache).conclude slot
      (.ready c.entries.length) with hc'
  have hopen : ∀ e, c'.isOpen e = if e = c.entries.length then true else c.isOpen e :=
    isOpen_append c (Entry.fresh key r c.net.now c.ttl)
  have hslots : c'.slots.length = c.slots.length := List.length_modify _ _ _
  have hlen : c'.entries.length = c.entries.length + 1 := by simp [hc', conclude, updateSlot]
  refine ⟨fun s e hr => ?_, fun s s' e hr hr' => ?_, fun k s e hrow hr => ?_, fun i s hs => ?_⟩
  · rw [hlen]
    rcases hf.ready?_settle hlt hr with ⟨-, rfl⟩ | ⟨-, hr⟩
    · exact Nat.lt_succ_self _
    · exact Nat.lt_succ_of_lt (hf.ready_lt s e hr)
  · rcases hf.ready?_settle hlt hr with ⟨rfl, rfl⟩ | ⟨hne, hr⟩
    · exact ((hf.ready?_settle hlt hr').resolve_right fun h => h.1 rfl).1.symm
    · exact hf.ready_inj s s' e hr
        ((hf.ready?_settle hlt hr').resolve_left fun h => hne h.2).2
  · rw [hopen]
    rcases hf.ready?_settle hlt hr with ⟨-, rfl⟩ | ⟨hne, hr⟩
    · exact if_pos rfl
    · rw [if_neg hne]
      exact hf.cached_open k s e hrow hr
  · rw [hslots]
    by_cases hi : i = id
    · subst hi
      rw [Function.update_self] at hs
      rcases List.mem_append.1 hs with hs | hs
      · exact hg.not_mem_of_outside hk hs
      · exact hf.drained_out i s (by rwa [Function.update_self])
    · exact hf.drained_out i s (by rwa [Function.update_of_ne hi] at hs ⊢)

/-- Every move keeps the entries of the map open. -/
theorem move (hg : Guarded c (Function.update H id h)) (hf : Filed c (Function.update H id h))
    (hm : Move id op (c, h) (c', h')) : Filed c' (Function.update H id h') := by
  -- Where the slots, the rows and the entries stay as they are.
  have same : c'.slots = c.slots → c'.current = c.current → c'.entries = c.entries →
      h'.drained = h.drained → Filed c' (Function.update H id h') := fun hslots hcur hent hdr =>
    hf.of_same_rows (by rw [hslots]) (by rw [hent])
      (fun _ => ready?_congr (by simp [outcome?, hslots])) (fun _ => isOpen_congr hent) hcur
      fun _ hs => .inl (hdr ▸ hs)
  cases hm with
  | round | promote => exact same rfl rfl rfl rfl
  | @keep _ _ e entry he =>
    exact same (checkEntry_slots c _) (checkEntry_rows c _) (checkEntry_entries c _) rfl
  | @touch _ _ e entry he hopen hfresh =>
    obtain ⟨net, hnet, -⟩ := c.checkEntry_eq entry
    rw [hnet]
    refine hf.of_same_rows rfl (by simp [setEntry]) (fun _ => rfl) (fun i => ?_) rfl
      fun _ hs => .inl hs
    rw [isOpen_setEntry (c := { c with net }) he]
    split
    · subst i
      exact ((isOpen_eq_true_iff (c := c)).2 ⟨entry, he, hopen⟩).symm ▸ by simp [hopen]
    · rfl
  | @evict _ _ pre post key slot e entry hrow hready he hopen hstale =>
    obtain ⟨net, hnet, -⟩ := c.checkEntry_eq entry
    rw [hnet]
    have hset := isOpen_setEntry (c := { c with net }) he { entry with closed := true }
    refine of_split hg hf hrow rfl rfl (by simp [note, setEntry]) (fun i hne hi => ?_)
      fun _ hs => .inl hs
    refine (hset i).trans ?_
    rw [if_neg (show i ≠ e by rintro rfl; exact hne hready)]
    exact hi
  | @forget _ _ pre post key slot o hrow ho hclosed =>
    exact of_split hg hf hrow rfl rfl rfl (fun _ _ hi => hi) fun _ hs => .inl hs
  | @withdraw _ _ pre post key slot hrow hop =>
    exact of_split hg hf hrow rfl rfl rfl (fun _ _ hi => hi)
      fun s hs => (List.mem_append.1 hs).imp_right List.mem_singleton.1
  | @claim _ _ slot e entry hslot hready he hopen =>
    have hset := isOpen_setEntry he { entry with closed := true }
    refine hf.of_move rfl (by simp [note, setEntry]) (fun _ => rfl) (fun _ hrow => hrow)
      (fun k s i hrow hr => ?_) fun _ hs => .inl hs
    refine (hset i).trans ?_
    rw [if_neg]
    · exact hf.cached_open k s i hrow hr
    · rintro rfl
      obtain rfl := hf.ready_inj s slot i hr hready
      exact (hf.drained_out id s (by rwa [Function.update_self])).2 k hrow
  | @skip _ _ slot rest hslot hclosed =>
    exact hf.of_same_rows rfl rfl (fun _ => rfl) (fun _ => rfl) rfl
      fun s hs => .inl (hslot ▸ List.mem_cons_of_mem _ hs)
  | @tell _ _ e rest hr hc =>
    obtain ⟨net, hnet⟩ := c.beginRelease_eq id e
    rw [hnet] at same ⊢
    exact same rfl rfl rfl rfl
  | @finish _ _ e hr =>
    obtain ⟨net, hnet⟩ := c.endRelease_eq id e
    rw [hnet] at same ⊢
    exact same rfl rfl rfl rfl
  | place hnone => exact hf.place hnone
  | build =>
    exact hf.of_same_rows (length_slots_updateSlot ..) rfl
      (fun s => ready?_congr (outcome?_setBuilder s)) (fun _ => rfl) rfl fun _ hs => .inl hs
  | queue | panic =>
    exact hf.of_same_rows (length_slots_updateSlot ..) rfl
      (fun s => ready?_congr (outcome?_updateSlot (by intro; rfl) s)) (fun _ => rfl) rfl
      fun _ hs => .inl hs
  | @leave _ _ key slot o hw ho =>
    have hk := hg.waiting id key slot (by rwa [Function.update_self])
    exact hf.of_same_rows rfl rfl (fun _ => rfl) (fun _ => rfl) rfl
      fun s hs => (List.mem_append.1 hs).symm.imp_right (hg.not_mem_of_outside hk)
  | @settle _ _ key slot r hb => exact settle hg hf hb r
  | @fail _ _ key slot err hb =>
    obtain ⟨hk, -, ho⟩ := hg.building id key slot (by rwa [Function.update_self])
    refine hf.of_same_rows (length_slots_updateSlot ..) rfl (fun s => ?_) (fun _ => rfl) rfl
      fun s hs => (List.mem_append.1 hs).symm.imp_right (hg.not_mem_of_outside hk)
    by_cases hs : slot = s
    · subst hs
      simp [ready?, ho, outcome?_conclude_self (lt_of_slotKey? hk)]
    · exact ready?_congr (outcome?_updateSlot_of_ne _ hs)

/-- A cancelled call closes no entry and puts no slot back into the map. -/
theorem cancel {call : Call} (hf : Filed c c.hands) (hcall : c.calls[id]? = some call)
    (es : List EntryId) :
    Filed ((Cache.letGo id c call.activity).abandon id es) (Function.update c.hands id {}) := by
  obtain ⟨slots, hlet⟩ := letGo_eq id c call.activity
  obtain ⟨hlen, -, hout⟩ := letGo_views id c call.activity
  rw [← update_hands_of_call hcall] at hf
  rw [hlet] at hlen hout ⊢
  exact hf.of_same_rows hlen rfl (fun s => ready?_congr (hout s)) (fun _ => rfl) rfl
    fun _ hs => absurd hs List.not_mem_nil

theorem congr (hf : Filed c H) (hrows : c'.current.Perm c.current) (hslots : c'.slots = c.slots)
    (hentries : c'.entries = c.entries) : Filed c' H := by
  have hready : ∀ s, c'.ready? s = c.ready? s := fun s => ready?_congr (by simp [outcome?, hslots])
  refine ⟨fun s e hr => ?_, fun s s' e hr hr' => ?_, fun k s e hrow hr => ?_, fun i s hs => ?_⟩
  · rw [hready] at hr
    exact hentries ▸ hf.ready_lt s e hr
  · rw [hready] at hr hr'
    exact hf.ready_inj s s' e hr hr'
  · rw [hready] at hr
    rw [isOpen_congr hentries]
    exact hf.cached_open k s e (hrows.mem_iff.1 hrow) hr
  · rw [hslots]
    exact (hf.drained_out i s hs).imp_right fun hno k hrow => hno k (hrows.mem_iff.1 hrow)

end Filed

/-- Moves keep the entries of the map open, and so does cancelling any call. -/
theorem kept_filed (P : Call → Prop) : Kept P fun c H => Guarded c H ∧ Filed c H where
  move hm h := ⟨h.1.move hm, h.2.move h.1 hm⟩
  cancel hcall hfit hP h := ⟨(kept_guarded P).cancel hcall hfit hP h.1, h.2.cancel hcall _⟩
  frame hrows hslots hentries hj h :=
    ⟨(kept_guarded P).frame hrows hslots hentries hj h.1, h.2.congr hrows hslots hentries⟩

/-- An entry of the map is open after every run. -/
theorem filed_run (ttl : Nat) (events : List Event) :
    Filed ((new ttl).run events) ((new ttl).run events).hands :=
  ((kept_filed _).strides (strides_run_any (.new ttl) events) ⟨.new ttl, .new ttl⟩).2

end Cache

end ConnectionBroker
