import ConnectionBroker.Proofs.Cache.Deeds

/-!
# What becomes of an entry

An entry keeps its key, its resource and its time to live for good, and once it is closed it stays
so (`Entry.Ages`). No entry is ever lost, and a new one lives as long as the cache says
(`Cache.Ages`). A move does so much and no more, hence so does every run (`Strides.ages`).
-/

namespace ConnectionBroker

/-- What an entry can become : it may have been used, and it may have been closed. -/
structure Entry.Ages (old new : Entry) : Prop where
  key : new.key = old.key
  resource : new.resource = old.resource
  ttl : new.ttl = old.ttl
  closed : old.closed = true → new.closed = true

theorem Entry.Ages.refl (entry : Entry) : entry.Ages entry :=
  ⟨rfl, rfl, rfl, id⟩

theorem Entry.Ages.trans {a b c : Entry} (h : a.Ages b) (h' : b.Ages c) : a.Ages c :=
  ⟨h'.key.trans h.key, h'.resource.trans h.resource, h'.ttl.trans h.ttl, h'.closed ∘ h.closed⟩

namespace Cache

variable {id : CallId} {op : Operation} {c c' c'' : Cache} {P : Call → Prop} {e : EntryId}
  {entry : Entry}

/-- What the entries of a cache can become. -/
structure Ages (c c' : Cache) : Prop where
  ttl : c'.ttl = c.ttl
  old : ∀ (i : EntryId) (entry : Entry), c.entries[i]? = some entry →
    ∃ entry', c'.entries[i]? = some entry' ∧ entry.Ages entry'
  young : ∀ (i : EntryId) (entry' : Entry), c.entries[i]? = none → c'.entries[i]? = some entry' →
    entry'.ttl = c.ttl

namespace Ages

theorem of_entries (httl : c'.ttl = c.ttl) (hentries : c'.entries = c.entries) : c.Ages c' where
  ttl := httl
  old i entry h := ⟨entry, by rw [hentries, h], .refl entry⟩
  young i entry' h h' := by simp [hentries, h] at h'

theorem trans (h : c.Ages c') (h' : c'.Ages c'') : c.Ages c'' where
  ttl := h'.ttl.trans h.ttl
  old i entry he := by
    obtain ⟨entry', he', hage⟩ := h.old i entry he
    obtain ⟨entry'', he'', hage'⟩ := h'.old i entry' he'
    exact ⟨entry'', he'', hage.trans hage'⟩
  young i entry'' hnone he'' := by
    cases he' : c'.entries[i]? with
    | none => exact (h'.young i entry'' he' he'').trans h.ttl
    | some entry' =>
      obtain ⟨later, hlater, hage⟩ := h'.old i entry' he'
      obtain rfl : later = entry'' := Option.some.inj (hlater.symm.trans he'')
      exact hage.ttl.trans (h.young i entry' hnone he')

/-- One entry ages. -/
theorem setEntry {new : Entry} (he : c.entries[e]? = some entry) (hage : entry.Ages new) :
    c.Ages (c.setEntry e new) := by
  obtain ⟨hlt, -⟩ := List.getElem?_eq_some_iff.1 he
  refine ⟨rfl, fun i old hold => ?_, fun i entry' hnone h' => ?_⟩
  · by_cases hi : i = e
    · subst hi
      obtain rfl : entry = old := Option.some.inj (he.symm.trans hold)
      exact ⟨new, entries_setEntry_self he new, hage⟩
    · exact ⟨old, by rw [Cache.setEntry, List.getElem?_set_ne (Ne.symm hi), hold], .refl old⟩
  · have hi : e ≠ i := by
      rintro rfl
      rw [he] at hnone
      cases hnone
    rw [Cache.setEntry, List.getElem?_set_ne hi, hnone] at h'
    cases h'

/-- An entry is closed. -/
theorem close (he : c.entries[e]? = some entry) :
    c.Ages (c.setEntry e { entry with closed := true }) :=
  setEntry he ⟨rfl, rfl, rfl, fun _ => rfl⟩

/-- An entry is built. -/
theorem append (hfresh : entry.ttl = c.ttl) :
    c.Ages { c with entries := c.entries ++ [entry] } := by
  refine ⟨rfl, fun i old hold => ?_, fun i entry' hnone h' => ?_⟩
  · obtain ⟨hlt, -⟩ := List.getElem?_eq_some_iff.1 hold
    exact ⟨old, by rw [List.getElem?_append_left hlt, hold], .refl old⟩
  · by_cases hi : i = c.entries.length
    · subst hi
      obtain rfl : entry = entry' := by simpa using h'
      exact hfresh
    · rw [getElem?_append_of_ne _ hi, hnone] at h'
      cases h'

/-- What is closed stays closed. -/
theorem isClosed (h : c.Ages c') (hclosed : c.isClosed e = true) : c'.isClosed e = true := by
  obtain ⟨entry, he, hclosed⟩ := isClosed_eq_true_iff.1 hclosed
  obtain ⟨entry', he', hage⟩ := h.old e entry he
  exact isClosed_eq_true_iff.2 ⟨entry', he', hage.closed hclosed⟩

theorem move {h h' : Hand} (hm : Move id op (c, h) (c', h')) : c.Ages c' := by
  cases hm with
  | keep he =>
    obtain ⟨net, hnet, -⟩ := c.checkEntry_eq _
    rw [hnet]
    exact of_entries rfl rfl
  | @touch _ _ e entry he hopen hfresh =>
    obtain ⟨net, hnet, -⟩ := c.checkEntry_eq entry
    have hask : c.Ages { c with net } := of_entries rfl rfl
    rw [hnet]
    exact hask.trans (setEntry he ⟨rfl, rfl, rfl, fun h => h⟩)
  | @evict _ _ pre post key slot e entry hrow hready he hopen hstale =>
    obtain ⟨net, hnet, -⟩ := c.checkEntry_eq entry
    have hask : c.Ages { c with net } := of_entries rfl rfl
    rw [hnet]
    exact (hask.trans (close he)).trans (of_entries rfl rfl)
  | claim hslot hready he hopen =>
    exact (close he).trans (of_entries rfl rfl)
  | @tell _ _ e rest hr hc =>
    obtain ⟨net, hnet⟩ := c.beginRelease_eq id e
    rw [hnet]
    exact of_entries rfl rfl
  | @finish _ _ e hr =>
    obtain ⟨net, hnet⟩ := c.endRelease_eq id e
    rw [hnet]
    exact of_entries rfl rfl
  | place hnone =>
    rw [slotFor_of_none hnone]
    exact of_entries rfl rfl
  | settle r hb => exact (append rfl).trans (of_entries rfl rfl)
  | round | forget | withdraw | skip | build | queue | promote | leave | fail | panic =>
    exact of_entries rfl rfl

theorem moves {s s' : Cache × Hand} (hm : Moves id op s s') : s.1.Ages s'.1 := by
  induction hm with
  | refl => exact of_entries rfl rfl
  | tail _ hm ih => exact ih.trans (move hm)

end Ages

theorem Stride.ages (hs : Stride P c c') : c.Ages c' := by
  cases hs with
  | world | reorder | sweeper => exact .of_entries rfl rfl
  | start hp => exact (Ages.moves hp.moves).trans (.of_entries rfl rfl)
  | resume hcall hlive hp => exact (Ages.moves hp.moves).trans (.of_entries rfl rfl)
  | @cancel id call hcall hlive hfit hP =>
    obtain ⟨slots, hlet⟩ := letGo_eq id c call.activity
    rw [abort_of_call hcall hlive, hlet]
    exact .of_entries rfl rfl

theorem Strides.ages (hs : Strides P c c') : c.Ages c' := by
  induction hs with
  | refl => exact .of_entries rfl rfl
  | tail _ hs ih => exact ih.trans hs.ages

/-- The time to live is the same for all entries and for good. -/
theorem ttl_run (ttl : Nat) (events : List Event) :
    ((new ttl).run events).ttl = ttl ∧
      ∀ (e : EntryId) (entry : Entry), ((new ttl).run events).entries[e]? = some entry →
        entry.ttl = ttl := by
  have hages := (strides_run_any (.new ttl) events).ages
  exact ⟨hages.ttl, fun e entry => hages.young e entry rfl⟩

end Cache

end ConnectionBroker
