import Mathlib.Data.List.Nodup
import ConnectionBroker.Cache.Step

/-!
# The tables of a cache

What the small operations on the tables of a cache do to what can be read off them : the rows of
the map, the outcome of a slot, whether an entry is open, and the deeds that the journal has for
an entry. `checkEntry_eq` says that asking a hop changes nothing but the world around the cache,
and `access_cases`, `tryExpire_cases` and `markClosed_cases` say everything that the three ways to
claim an entry can do.
-/

namespace ConnectionBroker

/-! ## The clock -/

namespace Network

theorem checkSession_now (n : Network) (s : SessionId) : (n.checkSession s).2.now = n.now := by
  unfold checkSession
  split <;> rfl

theorem checkTunnel_now (n : Network) (t : TunnelId) : (n.checkTunnel t).2.now = n.now := by
  unfold checkTunnel
  split
  · exact checkSession_now n _
  · rfl

@[simp] theorem checkHop_now (n : Network) (h : Hop) : (n.checkHop h).2.now = n.now := by
  cases h with
  | direct => rfl
  | channel s => exact checkSession_now n s
  | tunnel t => exact checkTunnel_now n t

end Network

namespace Cache

variable {c c' : Cache} {id : CallId} {d : Deed} {key : Fingerprint} {slot : SlotId} {e i : EntryId}

/-- What is added at the end of a table leaves the rest of it alone. -/
theorem getElem?_append_of_ne {α : Type} {rows : List α} (row : α) {i : Nat}
    (h : i ≠ rows.length) : (rows ++ [row])[i]? = rows[i]? := by
  rcases Nat.lt_or_ge i rows.length with hlt | hge
  · exact List.getElem?_append_left hlt
  · have hgt : (rows ++ [row]).length ≤ i := by
      rw [List.length_append]
      exact Nat.lt_of_le_of_ne hge (Ne.symm h)
    rw [List.getElem?_eq_none hge, List.getElem?_eq_none hgt]

/-! ## Rows of the map -/

/-- A key's slot stands in a row, and taking the key out takes that row out. -/
theorem split_of_lookup {rows : List (Fingerprint × SlotId)} (h : rows.lookup key = some slot) :
    ∃ pre post, rows = pre ++ (key, slot) :: post ∧
      (rows.eraseP fun row => row.1 == key) = pre ++ post := by
  obtain ⟨pre, post, rfl, hpre⟩ := List.lookup_eq_some_iff.1 h
  refine ⟨pre, post, rfl, ?_⟩
  rw [List.eraseP_append_right _ fun row hrow h =>
    bne_iff_ne.1 (hpre row hrow) (beq_iff_eq.1 h).symm]
  simp

/-- What is in the rows is the row where they are split, or before or after it. -/
theorem mem_split_iff {rows pre post : List (Fingerprint × SlotId)} {row r : Fingerprint × SlotId}
    (h : rows = pre ++ row :: post) : r ∈ rows ↔ r = row ∨ r ∈ pre ++ post := by
  rw [h, List.perm_middle.mem_iff, List.mem_cons]

/-- Where no key has two rows, the row where the rows are split is the only one of its key. -/
theorem not_mem_of_split {rows pre post : List (Fingerprint × SlotId)}
    (hkeys : (rows.map Prod.fst).Nodup) (h : rows = pre ++ (key, slot) :: post) (s : SlotId) :
    (key, s) ∉ pre ++ post := by
  rw [h, List.map_append, List.map_cons, List.nodup_middle, List.nodup_cons,
    ← List.map_append] at hkeys
  exact fun hmem => hkeys.1 (List.mem_map.2 ⟨(key, s), hmem, rfl⟩)

theorem mem_of_isCurrent (h : c.isCurrent key slot = true) : (key, slot) ∈ c.current := by
  obtain ⟨pre, post, hrow, -⟩ := split_of_lookup (beq_iff_eq.1 h)
  simp [hrow]

/-- Where no key has two rows, every row is its key's. -/
theorem lookup_of_mem {rows : List (Fingerprint × SlotId)} (hnd : (rows.map Prod.fst).Nodup)
    (h : (key, slot) ∈ rows) : rows.lookup key = some slot := by
  obtain ⟨pre, post, rfl⟩ := List.append_of_mem h
  refine List.lookup_eq_some_iff.2 ⟨pre, post, rfl, fun row hrow => bne_iff_ne.2 ?_⟩
  rintro rfl
  rw [List.map_append, List.map_cons] at hnd
  exact (List.nodup_append.1 hnd).2.2 _ (List.mem_map_of_mem hrow) _ List.mem_cons_self rfl

theorem lookup_eq_none_iff {rows : List (Fingerprint × SlotId)} :
    rows.lookup key = none ↔ key ∉ rows.map Prod.fst := by
  rw [List.lookup_eq_none_iff]
  constructor
  · intro h hmem
    obtain ⟨row, hrow, rfl⟩ := List.mem_map.1 hmem
    simpa using h row hrow
  · rintro h row hrow
    exact bne_iff_ne.2 fun hk => h (hk ▸ List.mem_map_of_mem hrow)

/-- A slot that is forgotten while its key has it goes with its row. -/
theorem forget_of_isCurrent (id : CallId) (h : c.isCurrent key slot = true) :
    ∃ pre post, c.current = pre ++ (key, slot) :: post ∧
      c.forget id key slot = { c.note id (.forget slot) with current := pre ++ post } := by
  obtain ⟨pre, post, hrow, herase⟩ := split_of_lookup (beq_iff_eq.1 h)
  refine ⟨pre, post, hrow, ?_⟩
  simp [forget, h, remove, note, herase]

theorem forget_of_not_isCurrent (h : c.isCurrent key slot = false) : c.forget id key slot = c := by
  simp [forget, h]

theorem calls_forget (c : Cache) (id : CallId) (key : Fingerprint) (slot : SlotId) :
    (c.forget id key slot).calls = c.calls := by
  unfold forget
  split <;> rfl

theorem slots_forget (c : Cache) (id : CallId) (key : Fingerprint) (slot : SlotId) :
    (c.forget id key slot).slots = c.slots := by
  unfold forget
  split <;> rfl

theorem entries_forget (c : Cache) (id : CallId) (key : Fingerprint) (slot : SlotId) :
    (c.forget id key slot).entries = c.entries := by
  unfold forget
  split <;> rfl

theorem net_forget (c : Cache) (id : CallId) (key : Fingerprint) (slot : SlotId) :
    (c.forget id key slot).net = c.net := by
  unfold forget
  split <;> rfl

theorem ttl_forget (c : Cache) (id : CallId) (key : Fingerprint) (slot : SlotId) :
    (c.forget id key slot).ttl = c.ttl := by
  unfold forget
  split <;> rfl

theorem withdraw_of_lookup (id : CallId) (h : c.current.lookup key = some slot) :
    ∃ pre post, c.current = pre ++ (key, slot) :: post ∧
      c.withdraw id key = { c.note id (.withdraw key slot) with current := pre ++ post } := by
  obtain ⟨pre, post, hrow, herase⟩ := split_of_lookup h
  refine ⟨pre, post, hrow, ?_⟩
  simp [withdraw, h, remove, note, herase]

theorem slotFor_of_some (h : c.current.lookup key = some slot) : c.slotFor key = (slot, c) := by
  simp [slotFor, h]

theorem slotFor_of_none (h : c.current.lookup key = none) :
    c.slotFor key = (c.slots.length,
      { c with
        current := c.current ++ [(key, c.slots.length)]
        slots := c.slots ++ [⟨key, none, [], none⟩] }) := by
  simp [slotFor, h]

/-- The slot that a key is given is the one that it has from then on. -/
theorem isCurrent_slotFor (c : Cache) (key : Fingerprint) :
    (c.slotFor key).2.isCurrent key (c.slotFor key).1 = true := by
  cases h : c.current.lookup key with
  | some slot => simp [slotFor_of_some h, isCurrent, h]
  | none => simp [slotFor_of_none h, isCurrent, List.lookup_append, h]

/-! ## Slots -/

/-- The key that a slot was made for. -/
def slotKey? (c : Cache) (slot : SlotId) : Option Fingerprint :=
  c.slots[slot]?.map (·.key)

@[simp] theorem length_slots_updateSlot (c : Cache) (slot : SlotId) (f : Slot → Slot) :
    (c.updateSlot slot f).slots.length = c.slots.length :=
  List.length_modify _ _ _

section UpdateSlot

variable {f : Slot → Slot} (hkey : ∀ s, (f s).key = s.key)
  (hbuilder : ∀ s, (f s).builder = s.builder) (houtcome : ∀ s, (f s).outcome = s.outcome)

theorem slots_updateSlot (c : Cache) (slot s : SlotId) (f : Slot → Slot) :
    (c.updateSlot slot f).slots[s]? = if slot = s then c.slots[s]?.map f else c.slots[s]? := by
  rw [updateSlot, List.getElem?_modify]
  split <;> simp

include hkey in
theorem slotKey?_updateSlot (s : SlotId) : (c.updateSlot slot f).slotKey? s = c.slotKey? s := by
  unfold slotKey?
  rw [slots_updateSlot]
  split <;> cases c.slots[s]? <;> simp [hkey]

include hbuilder in
theorem builder?_updateSlot (s : SlotId) :
    (c.updateSlot slot f).builder? s = c.builder? s := by
  unfold builder?
  rw [slots_updateSlot]
  split <;> cases c.slots[s]? <;> simp [hbuilder]

include houtcome in
theorem outcome?_updateSlot (s : SlotId) :
    (c.updateSlot slot f).outcome? s = c.outcome? s := by
  unfold outcome?
  rw [slots_updateSlot]
  split <;> cases c.slots[s]? <;> simp [houtcome]

end UpdateSlot

theorem builder?_updateSlot_of_ne {s : SlotId} (f : Slot → Slot) (h : slot ≠ s) :
    (c.updateSlot slot f).builder? s = c.builder? s := by
  unfold builder?
  rw [slots_updateSlot, if_neg h]

theorem outcome?_updateSlot_of_ne {s : SlotId} (f : Slot → Slot) (h : slot ≠ s) :
    (c.updateSlot slot f).outcome? s = c.outcome? s := by
  unfold outcome?
  rw [slots_updateSlot, if_neg h]

theorem outcome?_conclude_self {o : Outcome} (h : slot < c.slots.length) :
    (c.conclude slot o).outcome? slot = some o := by
  unfold outcome? conclude
  rw [slots_updateSlot, if_pos rfl, List.getElem?_eq_getElem h]
  rfl

theorem builder?_setBuilder_self (h : slot < c.slots.length) :
    (c.setBuilder slot id).builder? slot = some id := by
  unfold builder? setBuilder
  rw [slots_updateSlot, if_pos rfl, List.getElem?_eq_getElem h]
  rfl

@[simp] theorem slotKey?_setBuilder (s : SlotId) :
    (c.setBuilder slot id).slotKey? s = c.slotKey? s :=
  slotKey?_updateSlot (by intro; rfl) s

@[simp] theorem outcome?_setBuilder (s : SlotId) :
    (c.setBuilder slot id).outcome? s = c.outcome? s :=
  outcome?_updateSlot (by intro; rfl) s

theorem slotKey?_isSome_iff : (c.slotKey? slot).isSome ↔ slot < c.slots.length := by
  simp [slotKey?]

theorem lt_of_slotKey? (h : c.slotKey? slot = some key) : slot < c.slots.length :=
  slotKey?_isSome_iff.1 (by simp [h])

theorem lt_of_outcome? {o : Outcome} (ho : c.outcome? slot = some o) : slot < c.slots.length := by
  unfold outcome? at ho
  by_contra hge
  simp [List.getElem?_eq_none (Nat.not_lt.1 hge)] at ho

theorem ready?_eq_some_iff : c.ready? slot = some e ↔ c.outcome? slot = some (.ready e) := by
  unfold ready?
  split <;> simp_all

theorem ready?_congr {s : SlotId} (h : c'.outcome? s = c.outcome? s) :
    c'.ready? s = c.ready? s := by
  simp [ready?, h]

/-- A slot where an entry was built holds that entry, and the others what they held. -/
theorem ready?_conclude (h : slot < c.slots.length) (e : EntryId) (s : SlotId) :
    (c.conclude slot (.ready e)).ready? s = if s = slot then some e else c.ready? s := by
  split
  · subst s
    exact ready?_eq_some_iff.2 (outcome?_conclude_self h)
  · rename_i hs
    exact ready?_congr (outcome?_updateSlot_of_ne _ (Ne.symm hs))

section SlotFor

variable (hnone : c.current.lookup key = none)

include hnone in
/-- A new slot is made for the key that has none. -/
theorem slotKey?_slotFor (s : SlotId) :
    (c.slotFor key).2.slotKey? s = if s = c.slots.length then some key else c.slotKey? s := by
  rw [slotFor_of_none hnone]
  unfold slotKey?
  split
  · subst s
    rw [List.getElem?_concat_length]
    rfl
  · rw [getElem?_append_of_ne _ ‹_›]

include hnone in
/-- Nobody builds in a new slot. -/
theorem builder?_slotFor (s : SlotId) : (c.slotFor key).2.builder? s = c.builder? s := by
  rw [slotFor_of_none hnone]
  unfold builder?
  by_cases hs : s = c.slots.length
  · subst s
    simp
  · rw [getElem?_append_of_ne _ hs]

include hnone in
/-- A new slot has no outcome. -/
theorem outcome?_slotFor (s : SlotId) : (c.slotFor key).2.outcome? s = c.outcome? s := by
  rw [slotFor_of_none hnone]
  unfold outcome?
  by_cases hs : s = c.slots.length
  · subst s
    simp
  · rw [getElem?_append_of_ne _ hs]

end SlotFor

/-! ## Entries -/

theorem isOpen_eq_true_iff :
    c.isOpen e = true ↔ ∃ entry, c.entries[e]? = some entry ∧ entry.closed = false := by
  unfold isOpen
  split <;> simp_all

/-- What is found under a key is the open entry of the key's slot. -/
theorem find?_eq_some_iff : c.find? key = some e ↔ ∃ slot, c.current.lookup key = some slot ∧
    c.ready? slot = some e ∧ c.isOpen e = true := by
  unfold find?
  cases c.current.lookup key <;> simp [Option.filter_eq_some_iff]

theorem setEntry_self {entry : Entry} (h : c.entries[i]? = some entry) :
    c.setEntry i entry = c := by
  obtain ⟨hi, rfl⟩ := List.getElem?_eq_some_iff.1 h
  simp [setEntry]

theorem entries_setEntry_self {old : Entry} (h : c.entries[i]? = some old) (entry : Entry) :
    (c.setEntry i entry).entries[i]? = some entry := by
  obtain ⟨hi, -⟩ := List.getElem?_eq_some_iff.1 h
  simp [setEntry, hi]

/-- Asking a hop changes only the world around the cache, and not its clock. -/
theorem checkEntry_eq (c : Cache) (entry : Entry) :
    ∃ net, (c.checkEntry entry).2 = { c with net } ∧ net.now = c.net.now := by
  unfold checkEntry
  split
  · exact ⟨_, rfl, Network.checkHop_now c.net entry.resource.hop⟩
  · exact ⟨_, rfl, rfl⟩

@[simp] theorem checkEntry_now (c : Cache) (entry : Entry) :
    (c.checkEntry entry).2.net.now = c.net.now := by
  obtain ⟨net, h, hnow⟩ := c.checkEntry_eq entry
  rw [h, hnow]

@[simp] theorem checkEntry_entries (c : Cache) (entry : Entry) :
    (c.checkEntry entry).2.entries = c.entries := by
  obtain ⟨net, h, -⟩ := c.checkEntry_eq entry
  rw [h]

@[simp] theorem checkEntry_slots (c : Cache) (entry : Entry) :
    (c.checkEntry entry).2.slots = c.slots := by
  obtain ⟨net, h, -⟩ := c.checkEntry_eq entry
  rw [h]

@[simp] theorem checkEntry_rows (c : Cache) (entry : Entry) :
    (c.checkEntry entry).2.current = c.current := by
  obtain ⟨net, h, -⟩ := c.checkEntry_eq entry
  rw [h]

/-- An entry that is used is fresh, stale or closed. -/
theorem access_cases (c : Cache) (id : CallId) (e : EntryId) :
    (∃ entry, c.entries[e]? = some entry ∧ entry.closed = false ∧
      entry.isStale c.net.now (c.checkEntry entry).1 = false ∧
      c.access id e =
        (.touched, (c.checkEntry entry).2.setEntry e { entry with lastUse := c.net.now })) ∨
    (∃ entry, c.entries[e]? = some entry ∧ entry.closed = false ∧
      entry.isStale c.net.now (c.checkEntry entry).1 = true ∧
      c.access id e = (.expired,
        ((c.checkEntry entry).2.setEntry e { entry with closed := true }).note id (.claim e))) ∨
    (c.isOpen e = false ∧
      (c.access id e = (.closed, c) ∨ ∃ entry, c.entries[e]? = some entry ∧
        c.access id e = (.closed, (c.checkEntry entry).2))) := by
  cases he : c.entries[e]? with
  | none => exact .inr (.inr ⟨by simp [isOpen, he], .inl (by simp [access, he])⟩)
  | some entry =>
    cases hc : entry.closed with
    | true =>
      refine .inr (.inr ⟨by simp [isOpen, he, hc], .inr ⟨entry, rfl, ?_⟩⟩)
      have hself : (c.checkEntry entry).2.setEntry e entry = (c.checkEntry entry).2 :=
        setEntry_self (by rw [checkEntry_entries, he])
      simp [access, he, Entry.access, hc, hself]
    | false =>
      cases hs : entry.isStale c.net.now (c.checkEntry entry).1 with
      | true =>
        refine .inr (.inl ⟨entry, rfl, hc, hs, ?_⟩)
        simp [access, he, Entry.access, hc, hs]
      | false =>
        refine .inl ⟨entry, rfl, hc, hs, ?_⟩
        simp [access, he, Entry.access, hc, hs]

/-- An entry that a sweep looks at is claimed if it is open and stale, and else left alone. -/
theorem tryExpire_cases (c : Cache) (id : CallId) (e : EntryId) :
    (∃ entry, c.entries[e]? = some entry ∧ entry.closed = false ∧
      entry.isStale c.net.now (c.checkEntry entry).1 = true ∧
      c.tryExpire id e = (true,
        ((c.checkEntry entry).2.setEntry e { entry with closed := true }).note id (.claim e))) ∨
    (c.tryExpire id e = (false, c) ∨ ∃ entry, c.entries[e]? = some entry ∧
      c.tryExpire id e = (false, (c.checkEntry entry).2)) := by
  cases he : c.entries[e]? with
  | none => exact .inr (.inl (by simp [tryExpire, he]))
  | some entry =>
    have hself : (c.checkEntry entry).2.setEntry e entry = (c.checkEntry entry).2 :=
      setEntry_self (by rw [checkEntry_entries, he])
    cases hclaim : !entry.closed && entry.isStale c.net.now (c.checkEntry entry).1 with
    | true =>
      obtain ⟨hc, hs⟩ : entry.closed = false ∧
          entry.isStale c.net.now (c.checkEntry entry).1 = true := by simpa using hclaim
      refine .inl ⟨entry, rfl, hc, hs, ?_⟩
      simp [tryExpire, he, Entry.tryExpire, hc, hs]
    | false =>
      refine .inr (.inr ⟨entry, rfl, ?_⟩)
      simp only [tryExpire, he, Entry.tryExpire, checkEntry_now, hclaim]
      simp [hself]

/-- Only an open entry is claimed. -/
theorem markClosed_cases (c : Cache) (id : CallId) (e : EntryId) :
    (∃ entry, c.entries[e]? = some entry ∧ entry.closed = false ∧
      c.markClosed id e =
        (true, (c.setEntry e { entry with closed := true }).note id (.claim e))) ∨
    (c.isOpen e = false ∧ c.markClosed id e = (false, c)) := by
  cases he : c.entries[e]? with
  | none => exact .inr ⟨by simp [isOpen, he], by simp [markClosed, he]⟩
  | some entry =>
    cases hc : entry.closed with
    | true =>
      refine .inr ⟨by simp [isOpen, he, hc], ?_⟩
      simp [markClosed, he, Entry.markClosed, hc, setEntry_self he]
    | false => exact .inl ⟨entry, rfl, hc, by simp [markClosed, he, Entry.markClosed, hc]⟩

/-! ## Releases -/

/-- The beginning of a release changes the world and the journal. -/
theorem beginRelease_eq (c : Cache) (id : CallId) (e : EntryId) :
    ∃ net, c.beginRelease id e =
      { c with net, journal := c.journal ++ [(id, .tellService e)] } := by
  unfold beginRelease tellService
  split <;> exact ⟨_, rfl⟩

/-- The end of a release changes the world and the journal. -/
theorem endRelease_eq (c : Cache) (id : CallId) (e : EntryId) :
    ∃ net, c.endRelease id e =
      { c with net, journal := c.journal ++ [(id, .serviceClosed e), (id, .closeHop e)] } := by
  have hnet : ∀ c : Cache, ∃ net, c.closeHop e = { c with net } := by
    intro c
    unfold closeHop
    split <;> exact ⟨_, rfl⟩
  obtain ⟨net, h⟩ := hnet (c.note id (.serviceClosed e))
  exact ⟨net, by rw [endRelease, h]; simp [note]⟩

end Cache

end ConnectionBroker
