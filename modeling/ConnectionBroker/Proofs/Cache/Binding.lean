import ConnectionBroker.Proofs.Cache.Mirror

/-!
# The row of a key

Under a key a shelf keeps what is in the open entry of its row (`Mirrors.bound`), and where it keeps
nothing there is no row, or an empty slot in it (`Mirrors.unbound`). Whatever an operation does to
one key, it does to its row : the entry is used (`Mirrors.touched`), it is claimed and its row taken
out (`Mirrors.claimed`), or there is nothing in the row and it goes (`Mirrors.withdrawn`) or gets a
slot (`Mirrors.slotFor`). An entry that is used answers as the shelf says (`access_of_bound`).
-/

namespace ConnectionBroker

namespace Cache

variable {c c' d : Cache} {n : Network} {ttl : Nat} {loose : List Hop} {s : Shelf} {id : CallId}
  {e : EntryId} {key : Fingerprint} {slot : SlotId} {k : Shelved}

/-! ## Taking rows out -/

/-- What has a key, and what has the others, where no key is had twice. -/
theorem perm_cons_others {α : Type} (g : α → Fingerprint) {l : List α} (hnd : (l.map g).Nodup)
    {x : α} (hx : x ∈ l) : l.Perm (x :: l.filter (g · != g x)) := by
  obtain ⟨pre, post, rfl⟩ := List.append_of_mem hx
  have hnd' : (g x :: (pre ++ post).map g).Nodup :=
    ((List.perm_middle.map g).nodup_iff).1 hnd
  have hother : (pre ++ post).filter (g · != g x) = pre ++ post :=
    List.filter_eq_self.2 fun y hy => bne_iff_ne.2 fun heq =>
      (List.nodup_cons.1 hnd').1 (List.mem_map.2 ⟨y, hy, heq⟩)
  rw [List.filter_append, List.filter_cons_of_neg (by simp), ← List.filter_append, hother]
  exact List.perm_middle

/-- A key that is taken out leaves the rows of the others. -/
theorem current_remove (hkeys : (c.current.map Prod.fst).Nodup) (key : Fingerprint) :
    (c.remove key).current.Perm (c.current.filter (·.1 != key)) := by
  cases hlookup : c.current.lookup key with
  | none =>
    have hother : ∀ row ∈ c.current, (row.1 != key) = true := fun row hrow =>
      bne_iff_ne.2 fun heq => lookup_eq_none_iff.1 hlookup (List.mem_map.2 ⟨row, hrow, heq⟩)
    rw [remove, List.eraseP_of_forall_not fun row hrow => by simpa using hother row hrow,
      List.filter_eq_self.2 hother]
  | some slot =>
    obtain ⟨pre, post, hrow, herase⟩ := split_of_lookup hlookup
    have hmem : (key, slot) ∈ c.current := mem_of_isCurrent (by simp [isCurrent, hlookup])
    rw [remove, herase]
    refine (List.perm_cons (key, slot)).1 ?_
    refine .trans ?_ (perm_cons_others Prod.fst hkeys hmem)
    rw [hrow]
    exact List.perm_middle.symm

theorem current_forget (hkeys : (c.current.map Prod.fst).Nodup) (h : c.isCurrent key slot = true) :
    (c.forget id key slot).current.Perm (c.current.filter (·.1 != key)) := by
  rw [forget, if_pos h]
  exact current_remove hkeys key

/-- The rows that a key leaves when it is withdrawn. -/
theorem current_withdraw (hkeys : (c.current.map Prod.fst).Nodup) (id : CallId)
    (key : Fingerprint) : (c.withdraw id key).current.Perm (c.current.filter (·.1 != key)) := by
  refine .trans (.of_eq ?_) (current_remove hkeys key)
  unfold withdraw
  split
  · rfl
  · rename_i hnone
    refine (List.eraseP_of_forall_not fun row hrow heq => ?_).symm
    exact lookup_eq_none_iff.1 hnone (List.mem_map.2 ⟨row, hrow, beq_iff_eq.1 heq⟩)

theorem withdraw_frame (c : Cache) (id : CallId) (key : Fingerprint) :
    ∃ current journal, c.withdraw id key = { c with current, journal } := by
  unfold withdraw
  split
  · exact ⟨_, _, rfl⟩
  · exact ⟨c.current, c.journal, rfl⟩

/-! ## What is kept under a key -/

/-- A key that nothing is kept under is not among the keys of the shelf. -/
theorem keep_of_unbound (h : s.find? key = none) : (s.keep (·.key != key)).items = s.items :=
  List.filter_eq_self.2 fun k hk => by
    simpa using List.find?_eq_none.1 h k hk

theorem put_of_unbound (h : s.find? k.key = none) : (s.put k).items = k :: s.items :=
  congrArg (k :: ·) (keep_of_unbound h)

/-- What is kept under a key, and what is kept under the others. -/
theorem perm_bound (h : s.find? key = some k) :
    s.items.Perm (k :: (s.keep (·.key != key)).items) := by
  obtain ⟨hmem, rfl⟩ := Shelf.find?_eq_some_iff.1 h
  exact perm_cons_others Shelved.key s.distinct hmem

/-- An open entry stands in the row of a key. -/
structure Bound (c : Cache) (key : Fingerprint) (slot : SlotId) (e : EntryId)
    (entry : Entry) : Prop where
  lookup : c.current.lookup key = some slot
  ready : c.slots[slot]? = some ⟨key, none, [], some (.ready e)⟩
  there : c.entries[e]? = some entry
  keyed : entry.key = key
  isOpen : entry.closed = false
  ttl : entry.ttl = c.ttl

theorem Bound.mem {entry : Entry} (h : c.Bound key slot e entry) : (key, slot) ∈ c.current :=
  mem_of_isCurrent (by simp [isCurrent, h.lookup])

theorem Bound.kept? {entry : Entry} (h : c.Bound key slot e entry) :
    c.kept? (key, slot) = some ⟨key, entry.resource, entry.lastUse⟩ := by
  simp [Cache.kept?, ready?_of_ready h.ready, h.there]

namespace Mirrors

/-- What is kept under a key is the open entry of its row. -/
theorem bound (hm : Mirrors n ttl loose c s) (h : s.find? key = some k) : ∃ slot e entry,
    c.Bound key slot e entry ∧ k = ⟨key, entry.resource, entry.lastUse⟩ := by
  rw [hm.find? key] at h
  obtain ⟨slot, hlookup, hk⟩ := Option.bind_eq_some_iff.1 h
  have hmem : (key, slot) ∈ c.current := mem_of_isCurrent (by simp [isCurrent, hlookup])
  rcases (hm.rows _ hmem).cases with
    ⟨-, -, hnone⟩ | ⟨e, entry, hslot, -, he, hkey, hopen, httl, hkept⟩
  · simp [hnone] at hk
  · exact ⟨slot, e, entry, ⟨hlookup, hslot, he, hkey, hopen, httl⟩,
      Option.some.inj (hk.symm.trans hkept)⟩

/-- The open entry of a row is kept. -/
theorem find?_of_bound {entry : Entry} (hm : Mirrors n ttl loose c s)
    (hb : c.Bound key slot e entry) :
    s.find? key = some ⟨key, entry.resource, entry.lastUse⟩ := by
  rw [hm.find? key, hb.lookup, Option.bind_some, hb.kept?]

/-- Where nothing is kept under a key, it has no row, or an empty slot in it. -/
theorem unbound (hm : Mirrors n ttl loose c s) (h : s.find? key = none) :
    c.current.lookup key = none ∨ ∃ slot, c.current.lookup key = some slot ∧
      c.slots[slot]? = some ⟨key, none, [], none⟩ := by
  cases hlookup : c.current.lookup key with
  | none => exact .inl rfl
  | some slot =>
    have hmem : (key, slot) ∈ c.current := mem_of_isCurrent (by simp [isCurrent, hlookup])
    rcases (hm.rows _ hmem).cases with ⟨hslot, -, -⟩ | ⟨e, entry, -, -, -, -, -, -, hkept⟩
    · exact .inr ⟨slot, rfl, hslot⟩
    · rw [hm.find? key, hlookup, Option.bind_some, hkept] at h
      cases h

/-- An entry that is used is kept from now on. -/
theorem touched {entry : Entry} (hm : Mirrors n ttl loose c s) (hb : c.Bound key slot e entry) :
    Mirrors n ttl loose (c.setEntry e { entry with lastUse := c.net.now })
      (s.put ⟨key, entry.resource, s.now⟩) := by
  have he := entries_setEntry_self hb.there { entry with lastUse := c.net.now }
  have hready : (c.setEntry e { entry with lastUse := c.net.now }).ready? slot = some e :=
    ready?_of_ready hb.ready
  have hkept' : (c.setEntry e { entry with lastUse := c.net.now }).kept? (key, slot) =
      some ⟨key, entry.resource, s.now⟩ := by
    rw [Cache.kept?, hready, Option.bind_some, he, Option.map_some, hm.now]
  refine hm.replace (beside_setEntry hb.there hb.keyed _) [(key, slot)] (List.nodup_singleton _) ?_
    (perm_cons_others Prod.fst hm.keys hb.mem) hm.now ?_ ?_
  · intro row hrow
    obtain rfl := List.mem_singleton.1 hrow
    exact ⟨rfl, .inr ⟨e, _, hb.ready, he, hb.keyed, hb.isOpen, hb.ttl⟩⟩
  · rw [List.filterMap_cons_some hkept']
    exact .refl _
  · refine hm.fair.perm (List.Perm.append_right _ ?_)
    exact (perm_bound (hm.find?_of_bound hb)).map _

/-- An entry whose teardown is claimed is not kept any more, and its hop is to be closed. -/
theorem claimed {entry : Entry} (hm : Mirrors n ttl loose c s) (hb : c.Bound key slot e entry)
    (hcurrent : c'.current.Perm (c.current.filter (·.1 != key))) (hnet : c'.net = c.net)
    (httl : c'.ttl = c.ttl) (hslots : c'.slots = c.slots)
    (hentries : c'.entries = c.entries.set e { entry with closed := true }) :
    Mirrors n ttl (entry.resource.hop :: loose) c' (s.keep (·.key != key)) := by
  have hbeside : Beside (· = key) c c' := by
    have h := beside_setEntry hb.there hb.keyed { entry with closed := true }
    exact ⟨httl, fun i x hx hne => hslots ▸ h.slots i x hx hne,
      fun i x hx hne => hentries ▸ h.entries i x hx hne⟩
  refine hm.replace hbeside [] List.nodup_nil (by simp) hcurrent (by rw [hnet, hm.now]; rfl)
    (.refl _) ?_
  rw [hnet]
  refine hm.fair.perm ?_
  refine .trans (List.Perm.append_right _ ((perm_bound (hm.find?_of_bound hb)).map _)) ?_
  exact List.perm_middle.symm

/-- An entry that is claimed by the caller that found it stale. -/
theorem evicted {entry : Entry} (hm : Mirrors n ttl loose c s) (hb : c.Bound key slot e entry)
    (hd : d =
      ((c.setEntry e { entry with closed := true }).note id (.claim e)).forget id key slot) :
    d.Holds e entry.resource ∧ d.net = c.net ∧ d.calls = c.calls ∧
      Mirrors n ttl (entry.resource.hop :: loose) d (s.keep (·.key != key)) := by
  have hcur : ((c.setEntry e { entry with closed := true }).note id (.claim e)).isCurrent key
      slot = true := beq_iff_eq.2 hb.lookup
  have hentries : d.entries = c.entries.set e { entry with closed := true } := by
    rw [hd, entries_forget]
    rfl
  have hnet : d.net = c.net := by
    rw [hd, net_forget]
    rfl
  refine ⟨⟨{ entry with closed := true }, ?_, rfl⟩, hnet, ?_, ?_⟩
  · rw [hentries]
    exact entries_setEntry_self hb.there _
  · rw [hd, calls_forget]
    rfl
  · refine hm.claimed hb ?_ hnet ?_ ?_ hentries
    · rw [hd]
      exact current_forget hm.keys hcur
    · rw [hd, ttl_forget]
      rfl
    · rw [hd, slots_forget]
      rfl

/-- A key that is withdrawn while nothing is kept under it. -/
theorem withdrawn (hm : Mirrors n ttl loose c s) (h : s.find? key = none) (id : CallId) :
    Mirrors n ttl loose (c.withdraw id key) (s.keep (·.key != key)) := by
  have hcurrent := current_withdraw hm.keys id key
  obtain ⟨current, journal, heq⟩ := c.withdraw_frame id key
  rw [heq] at hcurrent ⊢
  refine hm.replace ⟨rfl, fun _ _ h _ => h, fun _ _ h _ => h⟩ [] List.nodup_nil (by simp) hcurrent
    hm.now (.refl _) ?_
  rw [keep_of_unbound h]
  exact hm.fair

/-- A key that nothing is kept under has an empty slot, or gets one. -/
theorem slotFor (hm : Mirrors n ttl loose c s) (h : s.find? key = none) : ∃ slot d,
    c.slotFor key = (slot, d) ∧ d.current.lookup key = some slot ∧
      d.slots[slot]? = some ⟨key, none, [], none⟩ ∧ d.net = c.net ∧ Mirrors n ttl loose d s := by
  rcases hm.unbound h with hnone | ⟨slot, hlookup, hslot⟩
  · obtain ⟨d, hd⟩ : ∃ d : Cache, d = { c with
      current := c.current ++ [(key, c.slots.length)]
      slots := c.slots ++ [⟨key, none, [], none⟩] } := ⟨_, rfl⟩
    have hslot : d.slots[c.slots.length]? = some ⟨key, none, [], none⟩ := by simp [hd]
    have hothers : c.current.filter (·.1 != key) = c.current :=
      List.filter_eq_self.2 fun row hrow => bne_iff_ne.2 fun heq =>
        lookup_eq_none_iff.1 hnone (List.mem_map.2 ⟨row, hrow, heq⟩)
    have hbeside : Beside (· = key) c d := by
      refine ⟨by rw [hd], fun i x hx _ => ?_, fun _ _ hx _ => by rwa [hd]⟩
      rw [hd]
      exact (List.getElem?_append_left (List.getElem?_eq_some_iff.1 hx).1).trans hx
    have hkept : d.kept? (key, c.slots.length) = none := by
      rw [Cache.kept?, ready?_of_empty hslot, Option.bind_none]
    refine ⟨c.slots.length, d, by rw [hd, slotFor_of_none hnone], ?_, hslot, by rw [hd],
      hm.replace hbeside [(key, c.slots.length)] (List.nodup_singleton _) ?_ ?_ ?_ ?_ ?_⟩
    · simp [hd, List.lookup_append, hnone]
    · intro row hrow
      obtain rfl := List.mem_singleton.1 hrow
      exact ⟨rfl, .inl hslot⟩
    · rw [hothers, hd]
      exact List.perm_append_comm
    · rw [hd]
      exact hm.now
    · rw [keep_of_unbound h, List.filterMap_cons_none hkept]
      exact .refl _
    · rw [hd]
      exact hm.fair
  · exact ⟨slot, c, slotFor_of_some hlookup, hlookup, hslot, rfl, hm⟩

end Mirrors

/-! ## Using an entry -/

/-- An entry with a hop that is as it was is used unless it is stale. -/
theorem access_of_bound {entry : Entry} (hn : n.Tireless) (hb : c.Bound key slot e entry)
    (hs : n.Spares c.net entry.resource.hop) (id : CallId) :
    c.access id e =
      if Shelved.stale c.ttl n.lives c.net.now ⟨key, entry.resource, entry.lastUse⟩ then
        (.expired, (c.setEntry e { entry with closed := true }).note id (.claim e))
      else (.touched, c.setEntry e { entry with lastUse := c.net.now }) := by
  obtain ⟨alive, hcheck, hstale⟩ := checkEntry_of_spares hn hb.isOpen hs key
  rw [hb.ttl] at hstale
  simp only [access, hb.there, hcheck, Entry.access, hb.isOpen, Bool.false_eq_true, if_false,
    ← hstale]
  cases entry.isStale c.net.now alive <;> rfl

/-- What is kept under a key has a hop that is as it was. -/
theorem Mirrors.spared_bound {entry : Entry} (hm : Mirrors n ttl loose c s)
    (hb : c.Bound key slot e entry) : n.Spares c.net entry.resource.hop :=
  hm.spared hb.mem hb.kept?

end Cache

end ConnectionBroker
