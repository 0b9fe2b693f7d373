import ConnectionBroker.Proofs.Cache.Deeds
import ConnectionBroker.Proofs.Cache.Filing

/-!
# Where open entries are

An open entry is the one of its key in the map, or it sits in a slot that a call has taken out of
the map and not looked at yet (`Custody.held`). An entry of the map is open (`Custody.cached_open`),
so that whoever takes one out has claimed it, or has it among its drained slots. Cancelling a call
with drained slots would lose the entries in them; a sweep has none (`kept_custody`).
-/

namespace ConnectionBroker

namespace Cache

variable {id : CallId} {op : Operation} {c c' : Cache} {h h' : Hand} {H H' : CallId → Hand}
  {key : Fingerprint} {slot : SlotId} {e : EntryId}

/-- The key that an entry was built for. -/
def entryKey? (c : Cache) (e : EntryId) : Option Fingerprint :=
  c.entries[e]?.map (·.key)

theorem entryKey?_congr (h : c'.entries = c.entries) : c'.entryKey? e = c.entryKey? e := by
  simp [entryKey?, h]

theorem entryKey?_setEntry {old entry : Entry} (he : c.entries[e]? = some old)
    (hkey : entry.key = old.key) (i : EntryId) :
    (c.setEntry e entry).entryKey? i = c.entryKey? i := by
  obtain ⟨hlt, rfl⟩ := List.getElem?_eq_some_iff.1 he
  unfold entryKey? setEntry
  rw [List.getElem?_set]
  by_cases hi : e = i
  · subst hi
    simp [hlt, hkey]
  · simp [hi]

/-- A new entry is for the key that it was built for. -/
theorem entryKey?_append (c : Cache) (entry : Entry) (i : EntryId) :
    ({ c with entries := c.entries ++ [entry] } : Cache).entryKey? i =
      if i = c.entries.length then some entry.key else c.entryKey? i := by
  unfold entryKey?
  split
  · subst i
    simp
  · rw [getElem?_append_of_ne _ ‹_›]

/-- The slots that hold entries, and where the open ones are. -/
structure Custody (c : Cache) (H : CallId → Hand) : Prop where
  /-- A slot holds an entry that was built for the slot's key. -/
  ready_key : ∀ slot e, c.ready? slot = some e →
    ∃ key, c.slotKey? slot = some key ∧ c.entryKey? e = some key
  /-- No entry is in two slots. -/
  ready_inj : ∀ slot slot' e, c.ready? slot = some e → c.ready? slot' = some e → slot = slot'
  /-- An entry of the map is open. -/
  cached_open : ∀ key slot e, (key, slot) ∈ c.current → c.ready? slot = some e →
    c.isOpen e = true
  /-- A drained slot is not in the map. -/
  drained_out : ∀ id slot, slot ∈ (H id).drained →
    slot < c.slots.length ∧ ∀ key, (key, slot) ∉ c.current
  /-- An open entry is in the map or in a drained slot. -/
  held : ∀ e, c.isOpen e = true → ∃ slot, c.ready? slot = some e ∧
    ((∃ key, (key, slot) ∈ c.current) ∨ ∃ id, slot ∈ (H id).drained)

namespace Custody

theorem new (ttl : Nat) : Custody (new ttl) (new ttl).hands where
  ready_key slot e hr := by simp [ready?, outcome?, Cache.new] at hr
  ready_inj slot slot' e hr := by simp [ready?, outcome?, Cache.new] at hr
  cached_open key slot e hrow := by simp [Cache.new] at hrow
  drained_out id slot hs := by simp [hands, activity?, Cache.new] at hs
  held e he := by simp [isOpen, Cache.new] at he

/-- A slot that holds an entry is there. -/
theorem lt_of_ready? (hv : Custody c H) (hr : c.ready? slot = some e) :
    slot < c.slots.length ∧ e < c.entries.length := by
  obtain ⟨key, hk, he⟩ := hv.ready_key slot e hr
  refine ⟨lt_of_slotKey? hk, ?_⟩
  unfold entryKey? at he
  obtain ⟨entry, hentry, -⟩ := Option.map_eq_some_iff.1 he
  exact (List.getElem?_eq_some_iff.1 hentry).1

theorem filed (hv : Custody c H) : Filed c H :=
  ⟨fun _ _ hr => (hv.lt_of_ready? hr).2, hv.ready_inj, hv.cached_open, hv.drained_out⟩

/-- A call changes no slot and makes no entry : it closes entries and takes rows out. What stays
open in a row that goes is in its hands afterwards. -/
theorem of_move (hv : Custody c (Function.update H id h)) (hf : Filed c' (Function.update H id h'))
    (hkey : ∀ s, c'.slotKey? s = c.slotKey? s) (hready : ∀ s, c'.ready? s = c.ready? s)
    (hentry : ∀ e, c'.entryKey? e = c.entryKey? e)
    (hopen : ∀ e, c'.isOpen e = true → c.isOpen e = true)
    (hkept : ∀ k s e, (k, s) ∈ c.current → c.ready? s = some e → c'.isOpen e = true →
      (k, s) ∈ c'.current ∨ s ∈ h'.drained)
    (hin : ∀ s e, s ∈ h.drained → c.ready? s = some e → c'.isOpen e = true → s ∈ h'.drained) :
    Custody c' (Function.update H id h') := by
  refine ⟨fun s e hr => ?_, hf.ready_inj, hf.cached_open, hf.drained_out, fun e he => ?_⟩
  · rw [hready] at hr
    rw [hkey, hentry]
    exact hv.ready_key s e hr
  · obtain ⟨s, hr, ⟨k, hrow⟩ | ⟨i, hs⟩⟩ := hv.held e (hopen e he)
    · refine ⟨s, (hready s).trans hr, (hkept k s e hrow hr he).imp (fun h => ⟨k, h⟩) fun hs => ?_⟩
      exact ⟨id, by rwa [Function.update_self]⟩
    · exact ⟨s, (hready s).trans hr, .inr ⟨i, update_imp (P := fun h => s ∈ h.drained)
        (fun hs => hin s e hs hr he) hs⟩⟩

/-- A call leaves the rows and the entries alone. -/
theorem of_same_rows (hv : Custody c (Function.update H id h))
    (hf : Filed c' (Function.update H id h')) (hkey : ∀ s, c'.slotKey? s = c.slotKey? s)
    (hready : ∀ s, c'.ready? s = c.ready? s) (hentry : ∀ e, c'.entryKey? e = c.entryKey? e)
    (hopen : ∀ e, c'.isOpen e = c.isOpen e) (hcur : c'.current = c.current)
    (hin : ∀ s e, s ∈ h.drained → c.ready? s = some e → c.isOpen e = true → s ∈ h'.drained) :
    Custody c' (Function.update H id h') :=
  hv.of_move hf hkey hready hentry (fun e he => hopen e ▸ he)
    (fun _ _ _ hrow _ _ => .inl (hcur ▸ hrow)) fun s e hs hr he => hin s e hs hr (hopen e ▸ he)

/-- A row goes, and what it holds is closed or in the call's hands. -/
theorem of_split (hv : Custody c (Function.update H id h)) (hf : Filed c' (Function.update H id h'))
    {pre post : List (Fingerprint × SlotId)} (hrow : c.current = pre ++ (key, slot) :: post)
    (hcur : c'.current = pre ++ post) (hslots : c'.slots = c.slots)
    (hentry : ∀ e, c'.entryKey? e = c.entryKey? e)
    (hopen : ∀ e, c'.isOpen e = true → c.isOpen e = true)
    (hslot : ∀ e, c.ready? slot = some e → c'.isOpen e = true → slot ∈ h'.drained)
    (hin : ∀ s ∈ h.drained, s ∈ h'.drained) :
    Custody c' (Function.update H id h') := by
  refine hv.of_move hf (by simp [slotKey?, hslots])
    (fun s => ready?_congr (by simp [outcome?, hslots])) hentry hopen (fun k s e hk hr he => ?_)
    fun s e hs _ _ => hin s hs
  rw [hcur]
  refine ((mem_split_iff hrow).1 hk).symm.imp_right fun heq => ?_
  obtain ⟨rfl, rfl⟩ := Prod.mk.inj heq
  exact hslot e hr he

theorem place (hv : Custody c H) (hnone : c.current.lookup key = none) :
    Custody (c.slotFor key).2 H := by
  have hf := hv.filed.place hnone
  have hready : ∀ s, (c.slotFor key).2.ready? s = c.ready? s := fun s =>
    ready?_congr (outcome?_slotFor hnone s)
  have hkey : ∀ {s}, s < c.slots.length → (c.slotFor key).2.slotKey? s = c.slotKey? s := fun hs =>
    (slotKey?_slotFor hnone _).trans (if_neg (Nat.ne_of_lt hs))
  have hentries : (c.slotFor key).2.entries = c.entries := by rw [slotFor_of_none hnone]
  refine ⟨fun s e hr => ?_, hf.ready_inj, hf.cached_open, hf.drained_out, fun e he => ?_⟩
  · rw [hready] at hr
    rw [hkey (hv.lt_of_ready? hr).1, entryKey?_congr hentries]
    exact hv.ready_key s e hr
  · rw [isOpen_congr hentries] at he
    obtain ⟨s, hr, hwhere⟩ := hv.held e he
    refine ⟨s, (hready s).trans hr, hwhere.imp_left ?_⟩
    rintro ⟨k, hrow⟩
    refine ⟨k, ?_⟩
    rw [slotFor_of_none hnone]
    exact List.mem_append_left _ hrow

/-- A new entry is in the slot where it was built, and that is in the map or in the hands of its
builder. -/
theorem settle (hg : Guarded c (Function.update H id h)) (hv : Custody c (Function.update H id h))
    (hb : h.building = some (key, slot)) (r : Resource) :
    Custody ({ c with entries := c.entries ++ [Entry.fresh key r c.net.now c.ttl] }.conclude slot
        (.ready c.entries.length))
      (Function.update H id
        { h with building := none, drained := c.outside key slot ++ h.drained }) := by
  have hf := hv.filed.settle hg hb r
  obtain ⟨hk, -, ho⟩ := hg.building id key slot (by rwa [Function.update_self])
  have hlt := lt_of_slotKey? hk
  have hnone : c.ready? slot = none := by simp [ready?, ho]
  set entry := Entry.fresh key r c.net.now c.ttl
  set c' := ({ c with entries := c.entries ++ [entry] } : Cache).conclude slot
    (.ready c.entries.length) with hc'
  have hready : ∀ s, c'.ready? s = if s = slot then some c.entries.length else c.ready? s :=
    ready?_conclude hlt _
  have hkey : ∀ s, c'.slotKey? s = c.slotKey? s := slotKey?_updateSlot fun _ => rfl
  have hentry : ∀ e, c'.entryKey? e = if e = c.entries.length then some key else c.entryKey? e :=
    entryKey?_append c entry
  have hopen : ∀ e, c'.isOpen e = if e = c.entries.length then true else c.isOpen e :=
    isOpen_append c entry
  refine ⟨fun s e hr => ?_, hf.ready_inj, hf.cached_open, hf.drained_out, fun e he => ?_⟩
  · rw [hkey, hentry]
    rcases hv.filed.ready?_settle hlt hr with ⟨rfl, rfl⟩ | ⟨hne, hr⟩
    · exact ⟨key, hk, if_pos rfl⟩
    · rw [if_neg hne]
      exact hv.ready_key s e hr
  · rw [hopen] at he
    split at he
    · subst e
      refine ⟨slot, (hready slot).trans (if_pos rfl), ?_⟩
      by_cases hcur : c.isCurrent key slot = true
      · exact .inl ⟨key, mem_of_isCurrent hcur⟩
      · exact .inr ⟨id, by simp [outside, hcur]⟩
    · obtain ⟨s, hr, hwhere⟩ := hv.held e he
      have hs : s ≠ slot := by
        rintro rfl
        rw [hnone] at hr
        cases hr
      refine ⟨s, (hready s).trans ((if_neg hs).trans hr), hwhere.imp_right ?_⟩
      rintro ⟨i, hi⟩
      exact ⟨i, update_imp (P := fun h => s ∈ h.drained) (List.mem_append_right _) hi⟩

/-- Every move keeps open entries where they can be found. -/
theorem move (hg : Guarded c (Function.update H id h)) (hv : Custody c (Function.update H id h))
    (hm : Move id op (c, h) (c', h')) : Custody c' (Function.update H id h') := by
  have hf := hv.filed.move hg hm
  -- Where the slots, the rows and the entries stay as they are.
  have same : c'.slots = c.slots → c'.current = c.current → c'.entries = c.entries →
      h'.drained = h.drained → Custody c' (Function.update H id h') := fun hslots hcur hent hdr =>
    hv.of_same_rows hf (by simp [slotKey?, hslots])
      (fun _ => ready?_congr (by simp [outcome?, hslots])) (fun _ => entryKey?_congr hent)
      (fun _ => isOpen_congr hent) hcur fun _ _ hs _ _ => hdr ▸ hs
  cases hm with
  | round | promote => exact same rfl rfl rfl rfl
  | @keep _ _ e entry he =>
    exact same (checkEntry_slots c _) (checkEntry_rows c _) (checkEntry_entries c _) rfl
  | @touch _ _ e entry he hopen hfresh =>
    obtain ⟨net, hnet, -⟩ := c.checkEntry_eq entry
    rw [hnet] at hf ⊢
    refine hv.of_same_rows hf (fun _ => rfl) (fun _ => rfl)
      (entryKey?_setEntry (c := { c with net }) he rfl) (fun i => ?_) rfl fun _ _ hs _ _ => hs
    rw [isOpen_setEntry (c := { c with net }) he]
    split
    · subst i
      exact ((isOpen_eq_true_iff (c := c)).2 ⟨entry, he, hopen⟩).symm ▸ by simp [hopen]
    · rfl
  | @evict _ _ pre post key slot e entry hrow hready he hopen hstale =>
    obtain ⟨net, hnet, -⟩ := c.checkEntry_eq entry
    rw [hnet] at hf ⊢
    have hset := isOpen_setEntry (c := { c with net }) he { entry with closed := true }
    refine hv.of_split hf hrow rfl rfl (entryKey?_setEntry (c := { c with net }) he rfl)
      (fun i hi => isOpen_of_closed hset hi) (fun i hr hi => ?_) fun _ hs => hs
    obtain rfl : e = i := Option.some.inj (hready.symm.trans hr)
    have hclosed := (hset e).symm.trans hi
    simp at hclosed
  | @forget _ _ pre post key slot o hrow ho hclosed =>
    refine hv.of_split hf hrow rfl rfl (fun _ => rfl) (fun _ hi => hi) (fun i hr hi => ?_)
      fun _ hs => hs
    rw [ready?_eq_some_iff, ho] at hr
    exact absurd ((hclosed i (Option.some.inj hr)).symm.trans hi) Bool.false_ne_true
  | @withdraw _ _ pre post key slot hrow hop =>
    exact hv.of_split hf hrow rfl rfl (fun _ => rfl) (fun _ hi => hi)
      (fun _ _ _ => List.mem_append_right _ (List.mem_singleton_self _))
      fun _ hs => List.mem_append_left _ hs
  | @claim _ _ slot e entry hslot hready he hopen =>
    have hset := isOpen_setEntry he { entry with closed := true }
    exact hv.of_move hf (fun _ => rfl) (fun _ => rfl) (entryKey?_setEntry he rfl)
      (fun i hi => isOpen_of_closed hset hi) (fun _ _ _ hrow _ _ => .inl hrow)
      fun _ _ hs _ _ => hs
  | @skip _ _ slot rest hslot hclosed =>
    refine hv.of_same_rows hf (fun _ => rfl) (fun _ => rfl) (fun _ => rfl) (fun _ => rfl) rfl
      fun s i hs hr hi => ?_
    rw [hslot] at hs
    refine (List.mem_cons.1 hs).resolve_left ?_
    rintro rfl
    exact absurd ((hclosed i hr).symm.trans hi) Bool.false_ne_true
  | @tell _ _ e rest hr hc =>
    obtain ⟨net, hnet⟩ := c.beginRelease_eq id e
    rw [hnet] at same hf ⊢
    exact same rfl rfl rfl rfl
  | @finish _ _ e hr =>
    obtain ⟨net, hnet⟩ := c.endRelease_eq id e
    rw [hnet] at same hf ⊢
    exact same rfl rfl rfl rfl
  | place hnone => exact hv.place hnone
  | build =>
    exact hv.of_same_rows hf slotKey?_setBuilder (fun s => ready?_congr (outcome?_setBuilder s))
      (fun _ => rfl) (fun _ => rfl) rfl fun _ _ hs _ _ => hs
  | queue | panic =>
    exact hv.of_same_rows hf (slotKey?_updateSlot fun _ => rfl)
      (fun s => ready?_congr (outcome?_updateSlot (by intro; rfl) s)) (fun _ => rfl)
      (fun _ => rfl) rfl fun _ _ hs _ _ => hs
  | @leave _ _ key slot o hw ho =>
    exact hv.of_same_rows hf (fun _ => rfl) (fun _ => rfl) (fun _ => rfl) (fun _ => rfl) rfl
      fun _ _ hs _ _ => List.mem_append_right _ hs
  | @settle _ _ key slot r hb => exact settle hg hv hb r
  | @fail _ _ key slot err hb =>
    obtain ⟨hk, -, ho⟩ := hg.building id key slot (by rwa [Function.update_self])
    refine hv.of_same_rows hf (slotKey?_updateSlot fun _ => rfl) (fun s => ?_) (fun _ => rfl)
      (fun _ => rfl) rfl fun _ _ hs _ _ => List.mem_append_right _ hs
    by_cases hs : slot = s
    · subst hs
      simp [ready?, ho, outcome?_conclude_self (lt_of_slotKey? hk)]
    · exact ready?_congr (outcome?_updateSlot_of_ne _ hs)

/-- A cancelled call that has no drained slots loses no entry. -/
theorem cancel {call : Call} (hv : Custody c c.hands) (hcall : c.calls[id]? = some call)
    (hnone : call.activity.hand.drained = []) (es : List EntryId) :
    Custody ((Cache.letGo id c call.activity).abandon id es) (Function.update c.hands id {}) := by
  have hf := hv.filed.cancel hcall es
  obtain ⟨slots, hlet⟩ := letGo_eq id c call.activity
  obtain ⟨-, hkey, hout⟩ := letGo_views id c call.activity
  rw [← update_hands_of_call hcall] at hv
  rw [hlet] at hkey hout hf ⊢
  refine hv.of_same_rows hf hkey (fun s => ready?_congr (hout s)) (fun _ => rfl) (fun _ => rfl)
    rfl fun s _ hs _ _ => ?_
  rw [hnone] at hs
  exact absurd hs List.not_mem_nil

theorem congr (hv : Custody c H) (hrows : c'.current.Perm c.current)
    (hslots : c'.slots = c.slots) (hentries : c'.entries = c.entries) : Custody c' H := by
  have hf := hv.filed.congr hrows hslots hentries
  have hready : ∀ s, c'.ready? s = c.ready? s := fun s => ready?_congr (by simp [outcome?, hslots])
  refine ⟨fun s e hr => ?_, hf.ready_inj, hf.cached_open, hf.drained_out, fun e he => ?_⟩
  · rw [hready] at hr
    rw [slotKey?, hslots, entryKey?_congr hentries]
    exact hv.ready_key s e hr
  · rw [isOpen_congr hentries] at he
    obtain ⟨s, hr, hwhere⟩ := hv.held e he
    refine ⟨s, (hready s).trans hr, hwhere.imp_left ?_⟩
    rintro ⟨k, hrow⟩
    exact ⟨k, hrows.mem_iff.2 hrow⟩

end Custody

/-- Moves keep open entries where they can be found, and so does cancelling sweeps. -/
theorem kept_custody : Kept (fun call => call.operation = .sweep)
    fun c H => Guarded c H ∧ Custody c H where
  move hm h := ⟨h.1.move hm, h.2.move h.1 hm⟩
  cancel hcall hfit hP h := by
    have hguarded := (kept_guarded fun call => call.operation = .sweep).cancel hcall hfit hP h.1
    refine ⟨hguarded, h.2.cancel hcall ?_ _⟩
    by_contra hne
    rcases hfit.drained hne with hop | hop <;> rw [hP] at hop <;> cases hop
  frame hrows hslots hentries hj h :=
    ⟨(kept_guarded fun _ => True).frame hrows hslots hentries hj h.1,
      h.2.congr hrows hslots hentries⟩

/-- Where open entries are after a run that spares its calls. -/
theorem custody_run {events : List Event} (ttl : Nat) (h : (new ttl).Spared events) :
    Custody ((new ttl).run events) ((new ttl).run events).hands :=
  (kept_custody.strides (strides_run_spared (.new ttl) h) ⟨.new ttl, .new ttl⟩).2

end Cache

end ConnectionBroker
