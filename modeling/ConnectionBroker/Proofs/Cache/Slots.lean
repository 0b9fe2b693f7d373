import ConnectionBroker.Proofs.Cache.Stride

/-!
# Who builds in a slot

A key has one slot in the map, and a slot is made for one key. The call that builds in a slot has
the slot's right to build, and nobody else has it (`Guarded.building`), so no two calls ever build
in one slot. A slot without an outcome leaves the map in one way only : it is withdrawn on request
(`Guarded.loose`). A sweep or a `get` takes out a slot only once it has an outcome.
-/

namespace ConnectionBroker

namespace Cache

variable {id : CallId} {op : Operation} {c c' : Cache} {h h' : Hand} {H H' : CallId → Hand}
  {key : Fingerprint} {slot : SlotId}

/-- The slots of the map and who builds in them. -/
structure Guarded (c : Cache) (H : CallId → Hand) : Prop where
  /-- No key has two rows. -/
  keys : (c.current.map Prod.fst).Nodup
  /-- A row holds a slot that was made for its key. -/
  row_key : ∀ key slot, (key, slot) ∈ c.current → c.slotKey? slot = some key
  /-- A call that builds has the right to build, and there is no outcome yet. -/
  building : ∀ id key slot, (H id).building = some (key, slot) →
    c.slotKey? slot = some key ∧ c.builder? slot = some id ∧ c.outcome? slot = none
  /-- A call waits at a slot of its key. -/
  waiting : ∀ id key slot, (H id).waiting = some (key, slot) → c.slotKey? slot = some key
  /-- A slot without an outcome is in the map unless it was withdrawn on request. -/
  loose : ∀ key slot, c.slotKey? slot = some key → c.outcome? slot = none →
    (key, slot) ∈ c.current ∨ ∃ id, (id, .withdraw key slot) ∈ c.journal

namespace Guarded

theorem new (ttl : Nat) : Guarded (new ttl) (new ttl).hands where
  keys := List.nodup_nil
  row_key key slot hrow := by simp [Cache.new] at hrow
  building id key slot hb := by simp [hands, activity?, Cache.new] at hb
  waiting id key slot hw := by simp [hands, activity?, Cache.new] at hw
  loose key slot hk := by simp [slotKey?, Cache.new] at hk

/-- Two calls that build do so in two slots. -/
theorem builder_unique (hg : Guarded c H) {i i' : CallId} {key' : Fingerprint}
    (hb : (H i).building = some (key, slot)) (hb' : (H i').building = some (key', slot)) :
    i = i' :=
  Option.some.inj ((hg.building i key slot hb).2.1.symm.trans (hg.building i' key' slot hb').2.1)

/-- A key's row is the only one with its slot. -/
theorem row_unique (hg : Guarded c H) {key' : Fingerprint} (hrow : (key, slot) ∈ c.current)
    (hrow' : (key', slot) ∈ c.current) : key = key' :=
  Option.some.inj ((hg.row_key key slot hrow).symm.trans (hg.row_key key' slot hrow'))

/-- A key's slot is the one in its row. -/
theorem isCurrent_of_mem (hg : Guarded c H) (hrow : (key, slot) ∈ c.current) :
    c.isCurrent key slot = true :=
  beq_iff_eq.2 (lookup_of_mem hg.keys hrow)

/-- Nothing changes for the builders where the slots have the same keys, builders and outcomes,
and the rows that go have an outcome or were withdrawn. -/
theorem of_views (hg : Guarded c H) (hkey : ∀ s, c'.slotKey? s = c.slotKey? s)
    (hbuilder : ∀ s, c'.builder? s = c.builder? s) (hout : ∀ s, c'.outcome? s = c.outcome? s)
    (hkeys : (c'.current.map Prod.fst).Nodup) (hrows : ∀ row ∈ c'.current, row ∈ c.current)
    (hgone : ∀ k s, (k, s) ∈ c.current → c.outcome? s = none →
      (k, s) ∈ c'.current ∨ ∃ id, (id, .withdraw k s) ∈ c'.journal)
    (hj : c.journal <+: c'.journal)
    (hb : ∀ i k s, (H' i).building = some (k, s) → (H i).building = some (k, s))
    (hw : ∀ i k s, (H' i).waiting = some (k, s) → c.slotKey? s = some k) : Guarded c' H' := by
  refine ⟨hkeys, fun k s hrow => ?_, fun i k s hi => ?_, fun i k s hi => ?_, fun k s hk ho => ?_⟩
  · rw [hkey]
    exact hg.row_key k s (hrows _ hrow)
  · rw [hkey, hbuilder, hout]
    exact hg.building i k s (hb i k s hi)
  · rw [hkey]
    exact hw i k s hi
  · rw [hkey] at hk
    rw [hout] at ho
    rcases hg.loose k s hk ho with hrow | ⟨i, hi⟩
    · exact hgone k s hrow ho
    · exact .inr ⟨i, hj.subset hi⟩

/-- Taking a row out that has an outcome or is withdrawn. -/
theorem of_split (hg : Guarded c H) {pre post : List (Fingerprint × SlotId)}
    (hrow : c.current = pre ++ (key, slot) :: post) (hslots : c'.slots = c.slots)
    (hcur : c'.current = pre ++ post)
    (hgone : c.outcome? slot = none → ∃ id, (id, .withdraw key slot) ∈ c'.journal)
    (hj : c.journal <+: c'.journal)
    (hb : ∀ i k s, (H' i).building = some (k, s) → (H i).building = some (k, s))
    (hw : ∀ i k s, (H' i).waiting = some (k, s) → (H i).waiting = some (k, s)) :
    Guarded c' H' := by
  have hsub : (pre ++ post).Sublist c.current := by
    rw [hrow]
    exact List.Sublist.append_left (List.sublist_cons_self _ _) pre
  refine hg.of_views (by simp [slotKey?, hslots]) (by simp [builder?, hslots])
    (by simp [outcome?, hslots]) ?_ ?_ (fun k s hmem ho => ?_) hj hb
    fun i k s hi => hg.waiting i k s (hw i k s hi)
  · rw [hcur]
    exact hg.keys.sublist (hsub.map _)
  · rw [hcur]
    exact fun row hmem => hsub.subset hmem
  · rw [hcur]
    rcases (mem_split_iff hrow).1 hmem with heq | hmem
    · obtain ⟨rfl, rfl⟩ := Prod.mk.inj heq
      exact .inr (hgone ho)
    · exact .inl hmem

/-- Changing a slot where nobody builds after the change. -/
theorem of_updateSlot (hg : Guarded c H) {f : Slot → Slot} (hkey : ∀ s, (f s).key = s.key)
    (hout : ∀ s, (f s).outcome = none → s.outcome = none)
    (hb : ∀ i k s, (H' i).building = some (k, s) → s ≠ slot ∧ (H i).building = some (k, s))
    (hw : ∀ i k s, (H' i).waiting = some (k, s) → (H i).waiting = some (k, s)) :
    Guarded (c.updateSlot slot f) H' := by
  refine ⟨hg.keys, fun k s hrow => ?_, fun i k s hi => ?_, fun i k s hi => ?_,
    fun k s hk ho => ?_⟩
  · rw [slotKey?_updateSlot hkey]
    exact hg.row_key k s hrow
  · obtain ⟨hne, hi⟩ := hb i k s hi
    rw [slotKey?_updateSlot hkey, builder?_updateSlot_of_ne f hne.symm,
      outcome?_updateSlot_of_ne f hne.symm]
    exact hg.building i k s hi
  · rw [slotKey?_updateSlot hkey]
    exact hg.waiting i k s (hw i k s hi)
  · rw [slotKey?_updateSlot hkey] at hk
    refine hg.loose k s hk ?_
    unfold outcome? at ho ⊢
    rw [slots_updateSlot] at ho
    split at ho
    · cases hs : c.slots[s]? with
      | none => rfl
      | some s' =>
        rw [hs] at ho
        exact hout s' ho
    · exact ho

/-- Nothing changes for the builders where the rows and the slots stay as they are. -/
theorem of_same (hg : Guarded c H) (hcur : c'.current = c.current) (hslots : c'.slots = c.slots)
    (hj : c.journal <+: c'.journal)
    (hb : ∀ i k s, (H' i).building = some (k, s) → (H i).building = some (k, s))
    (hw : ∀ i k s, (H' i).waiting = some (k, s) → (H i).waiting = some (k, s)) :
    Guarded c' H' :=
  hg.of_views (by simp [slotKey?, hslots]) (by simp [builder?, hslots])
    (by simp [outcome?, hslots]) (hcur ▸ hg.keys) (fun _ hrow => hcur ▸ hrow)
    (fun _ _ hrow _ => .inl (hcur ▸ hrow)) hj hb fun i k s hi => hg.waiting i k s (hw i k s hi)

/-- The call that builds in a slot stops building there. -/
theorem vacate (hg : Guarded c (Function.update H id h)) (hb : h.building = some (key, slot))
    (hb' : h'.building = none) (hw : h'.waiting = h.waiting) {f : Slot → Slot}
    (hkey : ∀ s, (f s).key = s.key) (hout : ∀ s, (f s).outcome = none → s.outcome = none) :
    Guarded (c.updateSlot slot f) (Function.update H id h') := by
  refine hg.of_updateSlot hkey hout (fun i k s hi => ?_) fun i k s => update_imp
    (P := fun h => h.waiting = some (k, s)) (fun h => hw ▸ h)
  have hne : i ≠ id := by
    rintro rfl
    simp [hb'] at hi
  have hi' : (Function.update H id h i).building = some (k, s) := by
    rwa [Function.update_of_ne hne] at hi ⊢
  refine ⟨?_, hi'⟩
  rintro rfl
  exact hne (hg.builder_unique hi' (by simpa using hb))

theorem place (hg : Guarded c H) (hnone : c.current.lookup key = none) :
    Guarded (c.slotFor key).2 H := by
  have hrows : (c.slotFor key).2.current = c.current ++ [(key, c.slots.length)] := by
    rw [slotFor_of_none hnone]
  have hold : ∀ {k s}, c.slotKey? s = some k → (c.slotFor key).2.slotKey? s = some k := by
    intro k s hk
    rw [slotKey?_slotFor hnone, if_neg (Nat.ne_of_lt (lt_of_slotKey? hk)), hk]
  refine ⟨?_, fun k s hrow => ?_, fun i k s hi => ?_, fun i k s hi => ?_, fun k s hk ho => ?_⟩
  · rw [hrows, List.map_append, List.nodup_append]
    refine ⟨hg.keys, by simp, fun k hk k' hk' => ?_⟩
    obtain rfl : k' = key := by simpa using hk'
    rintro rfl
    exact lookup_eq_none_iff.1 hnone hk
  · rw [hrows] at hrow
    rcases List.mem_append.1 hrow with hrow | hrow
    · exact hold (hg.row_key k s hrow)
    · obtain ⟨rfl, rfl⟩ := Prod.mk.inj (List.mem_singleton.1 hrow)
      rw [slotKey?_slotFor hnone, if_pos rfl]
  · obtain ⟨hk, hb, ho⟩ := hg.building i k s hi
    exact ⟨hold hk, (builder?_slotFor hnone s).trans hb, (outcome?_slotFor hnone s).trans ho⟩
  · exact hold (hg.waiting i k s hi)
  · rw [slotKey?_slotFor hnone] at hk
    rw [outcome?_slotFor hnone] at ho
    rw [hrows]
    split at hk
    · obtain rfl := Option.some.inj hk
      subst s
      exact .inl (List.mem_append_right _ (List.mem_singleton_self _))
    · rw [slotFor_of_none hnone]
      exact (hg.loose k s hk ho).imp_left (List.mem_append_left _)

/-- A call that may build in a slot without an outcome begins to. -/
theorem occupy (hg : Guarded c (Function.update H id h)) (hk : c.slotKey? slot = some key)
    (hb : c.builder? slot = some id) (ho : c.outcome? slot = none)
    (hb' : h'.building = some (key, slot)) (hw : ∀ x, h'.waiting = some x → h.waiting = some x) :
    Guarded (c.note id (.build slot)) (Function.update H id h') := by
  refine ⟨hg.keys, hg.row_key, fun i k s hi => ?_, fun i k s hi => hg.waiting i k s
    (update_imp (P := fun h => h.waiting = some (k, s)) (hw _) hi), fun k s hk ho => ?_⟩
  · by_cases hne : i = id
    · subst hne
      obtain ⟨rfl, rfl⟩ : key = k ∧ slot = s := by simpa [hb'] using hi
      exact ⟨hk, hb, ho⟩
    · exact hg.building i k s (by rwa [Function.update_of_ne hne] at hi ⊢)
  · refine (hg.loose k s hk ho).imp_right ?_
    rintro ⟨i, hi⟩
    exact ⟨i, List.mem_append_left _ hi⟩

/-- Every move keeps the slots guarded. -/
theorem move (hg : Guarded c (Function.update H id h)) (hm : Move id op (c, h) (c', h')) :
    Guarded c' (Function.update H id h') := by
  have himp : ∀ {P : Hand → Prop}, (P h' → P h) → ∀ {i}, P (Function.update H id h' i) →
      P (Function.update H id h i) := update_imp
  have same : c'.current = c.current → c'.slots = c.slots → c.journal <+: c'.journal →
      h'.building = h.building → (∀ x, h'.waiting = some x → h.waiting = some x) →
      Guarded c' (Function.update H id h') := fun hcur hslots hj hb hw =>
    hg.of_same hcur hslots hj (fun _ k s => himp (P := fun h => h.building = some (k, s)) (hb ▸ ·))
      (fun _ k s => himp (P := fun h => h.waiting = some (k, s)) (hw _))
  obtain ⟨-, -, ds, -, hj⟩ := move_frame hm
  have hj : c.journal <+: c'.journal := ⟨_, hj.symm⟩
  cases hm with
  | round | claim | skip => exact same rfl rfl hj rfl fun _ hw => hw
  | keep | touch =>
    exact same (checkEntry_rows c _) (checkEntry_slots c _) hj rfl fun _ hw => hw
  | @evict _ _ pre post key slot e entry hrow hready he hopen hstale =>
    refine hg.of_split hrow (checkEntry_slots c _) rfl (fun ho => ?_) hj
      (fun i k s => himp (P := fun h => h.building = some (k, s)) fun h => h)
      fun i k s => himp (P := fun h => h.waiting = some (k, s)) fun h => h
    rw [ready?_eq_some_iff, ho] at hready
    cases hready
  | forget hrow ho hclosed =>
    refine hg.of_split hrow rfl rfl (fun hnone => ?_) hj (fun _ _ _ h => h) fun _ _ _ h => h
    rw [ho] at hnone
    cases hnone
  | withdraw hrow hop =>
    exact hg.of_split hrow rfl rfl (fun _ => ⟨id, by simp [note]⟩) hj
      (fun i k s => himp (P := fun h => h.building = some (k, s)) fun h => h)
      fun i k s => himp (P := fun h => h.waiting = some (k, s)) fun h => h
  | @tell _ _ e rest hr hc =>
    obtain ⟨net, hnet⟩ := c.beginRelease_eq id e
    rw [hnet] at same hj ⊢
    exact same rfl rfl hj rfl fun _ hw => hw
  | @finish _ _ e hr =>
    obtain ⟨net, hnet⟩ := c.endRelease_eq id e
    rw [hnet] at same hj ⊢
    exact same rfl rfl hj rfl fun _ hw => hw
  | place hnone => exact hg.place hnone
  | @build _ _ key slot hcur hb ho =>
    have hk := hg.row_key key slot (mem_of_isCurrent hcur)
    have hfree : Guarded (c.setBuilder slot id) (Function.update H id h) :=
      hg.of_updateSlot (fun _ => rfl) (fun _ h => h)
        (fun i k s hi => ⟨by rintro rfl; simp [(hg.building i k s hi).2.1] at hb, hi⟩)
        fun _ _ _ h => h
    exact hfree.occupy (by rw [slotKey?_setBuilder, hk])
      (builder?_setBuilder_self (lt_of_slotKey? hk)) (by rw [outcome?_setBuilder, ho]) rfl
      fun _ hw => hw
  | @queue _ _ key slot hcur hb ho =>
    refine hg.of_views (slotKey?_updateSlot fun _ => rfl) (builder?_updateSlot fun _ => rfl)
      (outcome?_updateSlot fun _ => rfl) hg.keys (fun _ hrow => hrow) (fun _ _ hrow _ => .inl hrow)
      hj (fun i k s => himp (P := fun h => h.building = some (k, s)) fun h => h) fun i k s hi => ?_
    by_cases hne : i = id
    · subst hne
      obtain ⟨rfl, rfl⟩ : key = k ∧ slot = s := by simpa using hi
      exact hg.row_key key slot (mem_of_isCurrent hcur)
    · exact hg.waiting i k s (by rwa [Function.update_of_ne hne] at hi ⊢)
  | promote hw hb ho =>
    exact hg.occupy (hg.waiting id _ _ (by simpa using hw)) hb ho rfl (by simp)
  | leave hw ho => exact same rfl rfl hj rfl (by simp)
  | @settle _ _ key slot r hb =>
    have hentries : Guarded { c with entries := c.entries ++ [Entry.fresh key r c.net.now c.ttl] }
        (Function.update H id h) := ⟨hg.keys, hg.row_key, hg.building, hg.waiting, hg.loose⟩
    exact hentries.vacate hb (by rfl) (by rfl) (fun _ => rfl) (by simp)
  | fail err hb => exact hg.vacate hb (by rfl) (by rfl) (fun _ => rfl) (by simp)
  | panic hb => exact hg.vacate hb (by rfl) (by rfl) (fun _ => rfl) fun _ h => h

/-- A cancelled call lets go of its slot. -/
theorem letGo {call : Call} (hg : Guarded c c.hands) (hcall : c.calls[id]? = some call) :
    Guarded (letGo id c call.activity) (Function.update c.hands id {}) := by
  have hb : ∀ i k s, (Function.update c.hands id {} i).building = some (k, s) →
      i ≠ id ∧ (c.hands i).building = some (k, s) := by
    intro i k s hi
    have hne : i ≠ id := by
      rintro rfl
      simp at hi
    exact ⟨hne, by rwa [Function.update_of_ne hne] at hi⟩
  have hw : ∀ i k s, (Function.update c.hands id {} i).waiting = some (k, s) →
      (c.hands i).waiting = some (k, s) := by
    intro i k s hi
    rw [← update_hands_of_call hcall]
    exact update_imp (P := fun h => h.waiting = some (k, s)) (by simp) hi
  unfold Cache.letGo
  split
  · rename_i key left slot ha
    have hself := update_hands_of_call hcall
    rw [ha] at hself
    rw [← hself] at hg
    exact hg.vacate rfl (by rfl) (by rfl) (fun _ => rfl) fun _ h => h
  · rename_i key left slot ha
    split
    · refine hg.of_updateSlot (fun _ => rfl) (fun _ h => h) (fun i k s hi => ?_) hw
      obtain ⟨hne, hi⟩ := hb i k s hi
      refine ⟨?_, hi⟩
      rintro rfl
      exact hne (Option.some.inj ((hg.building i k _ hi).2.1.symm.trans ‹_›))
    · exact hg.of_views (slotKey?_updateSlot fun _ => rfl) (builder?_updateSlot fun _ => rfl)
        (outcome?_updateSlot fun _ => rfl) hg.keys (fun _ hrow => hrow)
        (fun _ _ hrow _ => .inl hrow) List.prefix_rfl (fun i k s hi => (hb i k s hi).2)
        fun i k s hi => hg.waiting i k s (hw i k s hi)
  · exact hg.of_same rfl rfl List.prefix_rfl (fun i k s hi => (hb i k s hi).2) hw

end Guarded

/-- Moves and cancelled calls keep the slots guarded. -/
theorem kept_guarded (P : Call → Prop) : Kept P Guarded where
  move hm hg := hg.move hm
  cancel hcall _ _ hg :=
    (hg.letGo hcall).of_same rfl rfl ⟨_, rfl⟩ (fun _ _ _ h => h) fun _ _ _ h => h
  frame hrows hslots _ hj hg :=
    hg.of_views (by simp [slotKey?, hslots]) (by simp [builder?, hslots])
      (by simp [outcome?, hslots]) ((hrows.map _).nodup_iff.2 hg.keys)
      (fun _ hrow => hrows.mem_iff.1 hrow) (fun _ _ hrow _ => .inl (hrows.mem_iff.2 hrow))
      (hj ▸ List.prefix_rfl) (fun _ _ _ h => h) hg.waiting

end Cache

end ConnectionBroker
