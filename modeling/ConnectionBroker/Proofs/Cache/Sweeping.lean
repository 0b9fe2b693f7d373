import ConnectionBroker.Proofs.Cache.Lodging

/-!
# What a sweep leaves

A sweep looks at one row after the other (`Cache.look`). A row stays if its entry is fit for use
when it is looked at, and whatever is open in a row that stayed was fit for use before the sweep
began (`vouched_of_kept`), for hops do not come back to life while it runs. No two rows hold one
entry, so the entry of a row that stays is left as it is (`kept_of_vouched`).

`Ticked` is a tick of the sweeper that begins a sweep : all the lodgers that it leaves are vouched
for (`Ticked.lodged`).
-/

namespace ConnectionBroker

namespace Cache

variable {id : CallId} {c c' c'' : Cache} {row : Fingerprint × SlotId} {e : EntryId} {entry : Entry}
  {rows : List (Fingerprint × SlotId)}

/-! ## Looking at entries -/

/-- No time passes, no hop comes back to life, the slots stay as they are, and so do the entries
that stay open. -/
structure Sifts (c c' : Cache) : Prop where
  wanes : c.net.Wanes c'.net
  slots : c'.slots = c.slots
  opened : ∀ (e : EntryId) (entry : Entry), c'.entries[e]? = some entry → entry.closed = false →
    c.entries[e]? = some entry

namespace Sifts

theorem refl (c : Cache) : c.Sifts c :=
  ⟨.refl _, rfl, fun _ _ he _ => he⟩

theorem trans (h : c.Sifts c') (h' : c'.Sifts c'') : c.Sifts c'' :=
  ⟨h.wanes.trans h'.wanes, h'.slots.trans h.slots, fun e entry he hopen =>
    h.opened e entry (h'.opened e entry he hopen) hopen⟩

theorem ready? (h : c.Sifts c') (slot : SlotId) : c'.ready? slot = c.ready? slot :=
  ready?_congr (by simp [outcome?, h.slots])

theorem checkEntry (c : Cache) (entry : Entry) : c.Sifts (c.checkEntry entry).2 :=
  ⟨c.wanes_checkEntry entry, checkEntry_slots c entry, fun _ _ he _ => by
    rwa [checkEntry_entries] at he⟩

theorem tryExpire (c : Cache) (id : CallId) (e : EntryId) : c.Sifts (c.tryExpire id e).2 := by
  rcases c.tryExpire_cases id e with ⟨entry, he, hopen, hstale, heq⟩ | heq | ⟨entry, he, heq⟩ <;>
    rw [heq]
  · have hasked := checkEntry c entry
    exact ⟨hasked.wanes, hasked.slots, fun i entry' he' hopen' => hasked.opened i entry'
      (getElem?_of_closed (by rwa [checkEntry_entries]) he' hopen').2 hopen'⟩
  · exact refl c
  · exact checkEntry c entry

end Sifts

/-- An entry that is fit for use is let be. -/
theorem tryExpire_of_vouched (id : CallId) (he : c.entries[e]? = some entry)
    (hv : c.Vouched entry) :
    (c.tryExpire id e).1 = false ∧ (c.tryExpire id e).2.entries[e]? = some entry := by
  rcases c.tryExpire_cases id e with ⟨entry', he', -, hstale, -⟩ | heq | ⟨entry', he', heq⟩
  · obtain rfl : entry = entry' := Option.some.inj (he.symm.trans he')
    rw [hv.fresh] at hstale
    cases hstale
  · rw [heq]
    exact ⟨rfl, he⟩
  · rw [heq]
    exact ⟨rfl, by rwa [checkEntry_entries]⟩

/-- An open entry that is let be is fit for use. -/
theorem vouched_of_tryExpire (id : CallId) (he : c.entries[e]? = some entry)
    (hopen : entry.closed = false) (hkept : (c.tryExpire id e).1 = false) : c.Vouched entry := by
  refine vouched_of_fresh hopen ?_
  cases hstale : entry.isStale c.net.now (c.checkEntry entry).1 with
  | false => rfl
  | true => simp [tryExpire, he, Entry.tryExpire, hopen, hstale] at hkept

/-- Looking at one entry leaves the others alone. -/
theorem entries_tryExpire_of_ne {i : EntryId} (hi : i ≠ e) :
    (c.tryExpire id e).2.entries[i]? = c.entries[i]? := by
  rcases c.tryExpire_cases id e with ⟨entry, he, hopen, hstale, heq⟩ | heq | ⟨entry, he, heq⟩ <;>
    rw [heq]
  · simp [note, setEntry, List.getElem?_set_ne (Ne.symm hi)]
  · rw [checkEntry_entries]

/-! ## Looking at rows -/

/-- A sweep looks at a row : whether it takes it out, and the cache after that. -/
def look (id : CallId) (row : Fingerprint × SlotId) (c : Cache) : Bool × Cache :=
  match c.ready? row.2 with
  | none => (false, c)
  | some e =>
    if (c.tryExpire id e).1 then (true, (c.tryExpire id e).2.note id (.forget row.2))
    else (false, (c.tryExpire id e).2)

/-- The cache after a sweep has looked at some rows. -/
def past (id : CallId) (rows : List (Fingerprint × SlotId)) (c : Cache) : Cache :=
  (claimStale id rows c).2.2

/-- The rows that a sweep keeps. -/
def keeps (id : CallId) (rows : List (Fingerprint × SlotId)) (c : Cache) :
    List (Fingerprint × SlotId) :=
  (claimStale id rows c).2.1

theorem past_cons : past id (row :: rows) c = past id rows (c.look id row).2 := by
  unfold past look
  cases hr : c.ready? row.2 with
  | none => simp [claimStale, hr]
  | some e => cases hx : c.tryExpire id e with
    | mk gone c' => cases gone <;> simp [claimStale, hr, hx]

theorem keeps_cons : keeps id (row :: rows) c =
    (if (c.look id row).1 then [] else [row]) ++ keeps id rows (c.look id row).2 := by
  unfold keeps look
  cases hr : c.ready? row.2 with
  | none => simp [claimStale, hr]
  | some e => cases hx : c.tryExpire id e with
    | mk gone c' => cases gone <;> simp [claimStale, hr, hx]

theorem past_append (before after : List (Fingerprint × SlotId)) :
    past id (before ++ after) c = past id after (past id before c) := by
  induction before generalizing c with
  | nil => rfl
  | cons row before ih => rw [List.cons_append, past_cons, past_cons, ih]

theorem keeps_append (before after : List (Fingerprint × SlotId)) :
    keeps id (before ++ after) c = keeps id before c ++ keeps id after (past id before c) := by
  induction before generalizing c with
  | nil => rfl
  | cons row before ih => rw [List.cons_append, keeps_cons, keeps_cons, past_cons, ih,
      List.append_assoc]

theorem sifts_look (c : Cache) (id : CallId) (row : Fingerprint × SlotId) :
    c.Sifts (c.look id row).2 := by
  unfold look
  split
  · exact .refl c
  · rename_i e hready
    have hlook := Sifts.tryExpire c id e
    split
    · exact ⟨hlook.wanes, hlook.slots, hlook.opened⟩
    · exact hlook

theorem sifts_past (id : CallId) (rows : List (Fingerprint × SlotId)) (c : Cache) :
    c.Sifts (past id rows c) := by
  induction rows generalizing c with
  | nil => exact .refl c
  | cons row rows ih =>
    rw [past_cons]
    exact (sifts_look c id row).trans (ih _)

/-- What is open in a row that is kept was fit for use when the sweep began. -/
theorem vouched_of_kept (hrow : row ∈ keeps id rows c) (hready : c.ready? row.2 = some e)
    (he : (past id rows c).entries[e]? = some entry) (hopen : entry.closed = false) :
    c.Vouched entry := by
  induction rows generalizing c with
  | nil => cases hrow
  | cons first rows ih =>
    have hlook := sifts_look c id first
    rw [past_cons] at he
    rw [keeps_cons] at hrow
    rcases List.mem_append.1 hrow with hfirst | hrest
    · -- The row was looked at just now, and its entry has not changed since.
      cases hgone : (c.look id first).1 with
      | true => simp [hgone] at hfirst
      | false =>
        obtain rfl : row = first := by simpa [hgone] using hfirst
        have hold := (sifts_past id rows _).opened e entry he hopen
        refine vouched_of_tryExpire id (hlook.opened e entry hold hopen) hopen ?_
        simp only [look, hready] at hgone
        split at hgone
        · cases hgone
        · exact Bool.eq_false_iff.2 ‹_›
    · exact (ih hrest ((hlook.ready? row.2).trans hready) he).of_wanes hlook.wanes

/-- An entry that is in none of the rows is left alone. -/
theorem entries_past (hother : ∀ row ∈ rows, c.ready? row.2 ≠ some e) :
    (past id rows c).entries[e]? = c.entries[e]? := by
  induction rows generalizing c with
  | nil => rfl
  | cons row rows ih =>
    have hlook := sifts_look c id row
    rw [past_cons, ih fun row' hrow' => by
      rw [hlook.ready?]
      exact hother row' (List.mem_cons_of_mem _ hrow')]
    have hne := hother row List.mem_cons_self
    unfold look
    split
    · rfl
    · rename_i i hi
      have hei : e ≠ i := by
        rintro rfl
        exact hne hi
      split <;> exact entries_tryExpire_of_ne hei

/-- An entry that is fit for use when its row is looked at stays where it is and as it is. -/
theorem kept_of_vouched {pre post : List (Fingerprint × SlotId)}
    (hready : c.ready? row.2 = some e) (he : c.entries[e]? = some entry)
    (hother : ∀ row' ∈ pre ++ post, c.ready? row'.2 ≠ some e)
    (hv : (past id pre c).Vouched entry) :
    row ∈ keeps id (pre ++ row :: post) c ∧
      (past id (pre ++ row :: post) c).entries[e]? = some entry := by
  set m := past id pre c with hm
  have hsifts := sifts_past id pre c
  have hready' : m.ready? row.2 = some e := (hsifts.ready? row.2).trans hready
  have he' : m.entries[e]? = some entry :=
    (entries_past fun row' hrow' => hother row' (List.mem_append_left _ hrow')).trans he
  obtain ⟨hkept, hsame⟩ := tryExpire_of_vouched id he' hv
  have hlook : m.look id row = (false, (m.tryExpire id e).2) := by
    simp [look, hready', hkept]
  have hpost : ∀ row' ∈ post, (m.tryExpire id e).2.ready? row'.2 ≠ some e := by
    intro row' hrow'
    rw [(Sifts.tryExpire m id e).ready?, hsifts.ready?]
    exact hother row' (List.mem_append_right _ hrow')
  refine ⟨?_, ?_⟩
  · rw [keeps_append, keeps_cons, ← hm, hlook]
    simp
  · rw [past_append, past_cons, ← hm, hlook, entries_past hpost, hsame]

/-! ## Ticks -/

/-- The sweeper has begun a sweep that was due. -/
structure Ticked (c c' : Cache) (s : Sweeper) : Prop where
  due : s.nextTick ≤ c.net.now
  wanes : c.net.Wanes c'.net
  rows : c'.current = keeps c.calls.length c.current c
  slots : c'.slots = c.slots
  entries : c'.entries = (past c.calls.length c.current c).entries
  sweeper : c'.sweeper = some ⟨s.interval, s.nextTick + s.interval, some c.calls.length⟩

/-- All the lodgers that a tick leaves are vouched for. -/
theorem Ticked.lodged {s : Sweeper} (ht : Ticked c c' s) (hl : c'.Lodged e entry) :
    c.Vouched entry := by
  obtain ⟨⟨key, slot, hrow, hready⟩, he, hopen⟩ := hl
  rw [ht.rows] at hrow
  rw [ht.entries] at he
  rw [ready?_congr (c := c) (by simp [outcome?, ht.slots])] at hready
  exact vouched_of_kept hrow hready he hopen

/-- The releases that a sweep begins leave everything but the world and the journal alone. -/
theorem releaseClaimed_eq (id : CallId) (claimed : List EntryId) (total : Nat) (c : Cache) :
    ∃ net journal, (c.releaseClaimed id claimed total).2 = { c with net, journal } ∧
      c.net.Wanes net := by
  cases claimed with
  | nil => exact ⟨_, _, rfl, .refl _⟩
  | cons e rest =>
    have hw := c.wanes_beginRelease id e
    obtain ⟨net, hnet⟩ := c.beginRelease_eq id e
    rw [hnet] at hw
    exact ⟨_, _, hnet, hw⟩

/-- A tick begins a sweep if one is due, and does nothing else. -/
theorem tick_cases (c : Cache) :
    (c.tick = c ∧ ∀ t, c.tickDue? = some t → c.net.now < t) ∨
      ∃ s, c.sweeper = some s ∧ Ticked c c.tick s := by
  unfold tick tickDue?
  cases hs : c.sweeper with
  | none => exact .inl ⟨rfl, by simp⟩
  | some s =>
    dsimp only
    by_cases hdue : c.sweeperIdle s = true ∧ s.nextTick ≤ c.net.now
    · refine .inr ⟨s, rfl, ?_⟩
      rw [if_pos (by simpa using hdue)]
      have hsifts := sifts_past c.calls.length c.current c
      set id := c.calls.length
      set swept : Cache := { past id c.current c with current := keeps id c.current c }
      obtain ⟨net, journal, heq, hw⟩ :=
        releaseClaimed_eq id (c.expire id).1 (c.expire id).1.length swept
      have hbegin : (begin id c .sweep).2 = { swept with net, journal } := heq
      have hcall : (c.call .sweep).2 = { swept with
          net, journal, calls := swept.calls ++ [⟨.sweep, (begin id c .sweep).1⟩] } := by
        simp only [Cache.call, id, hbegin]
      rw [show c.call .sweep = (id, (c.call .sweep).2) from rfl, hcall]
      exact ⟨hdue.2, hsifts.wanes.trans hw, rfl, hsifts.slots, rfl, rfl⟩
    · refine .inl ⟨if_neg (by simpa using hdue), fun t ht => ?_⟩
      split at ht
      · obtain rfl := Option.some.inj ht
        exact Nat.lt_of_not_le fun hle => hdue ⟨‹_›, hle⟩
      · cases ht

end Cache

end ConnectionBroker
