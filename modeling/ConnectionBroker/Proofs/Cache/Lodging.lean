import ConnectionBroker.Proofs.Cache.Filing
import ConnectionBroker.Proofs.Cache.Serving
import ConnectionBroker.Proofs.Network.Waning

/-!
# The lodgers of the map

An open entry that a slot of the map holds is `Lodged` there. A lodger stays as it is until it is
used or claimed, and whoever uses it has found it `Vouched` : not idle for its time to live, with a
living hop. A stretch of a call that builds nothing has therefore no lodgers but those that were
there before and those that it vouches for (`Lodges.walk`), and what a call has just built comes
into the map vouched for or not at all (`Lodges.built`).
-/

namespace ConnectionBroker

namespace Cache

variable {id : CallId} {op : Operation} {c c' c'' : Cache} {h h' : Hand} {key : Fingerprint}
  {slot : SlotId} {e : EntryId} {entry : Entry}

/-- The open entry is held by a slot of the map. -/
def Lodged (c : Cache) (e : EntryId) (entry : Entry) : Prop :=
  (∃ key slot, (key, slot) ∈ c.current ∧ c.ready? slot = some e) ∧
    c.entries[e]? = some entry ∧ entry.closed = false

/-- The entry is fit for use : not idle for its time to live, with a living hop. -/
structure Vouched (c : Cache) (entry : Entry) : Prop where
  busy : entry.isIdle c.net.now = false
  alive : ¬c.net.Dead entry.resource.hop

/-- No time passes, no hop comes back to life, and there are no lodgers but those that were there
before, as they were, and those that are vouched for. -/
structure Lodges (c c' : Cache) : Prop where
  wanes : c.net.Wanes c'.net
  lodged : ∀ e entry, c'.Lodged e entry → c.Lodged e entry ∨ c.Vouched entry

theorem Lodged.isOpen (hl : c.Lodged e entry) : c.isOpen e = true :=
  isOpen_eq_true_iff.2 ⟨entry, hl.2⟩

/-- What was fit for use after some such steps was so before. -/
theorem Vouched.of_wanes (hw : c.net.Wanes c'.net) (hv : c'.Vouched entry) : c.Vouched entry where
  busy := hw.now ▸ hv.busy
  alive hdead := hv.alive (hw.dead hdead)

/-- An entry that is not stale is fit for use. -/
theorem vouched_of_fresh (hopen : entry.closed = false)
    (hfresh : entry.isStale c.net.now (c.checkEntry entry).1 = false) : c.Vouched entry := by
  obtain ⟨hidle, halive⟩ := checkHop_of_fresh hopen hfresh
  exact ⟨hidle, Network.not_dead_iff.2 (by rw [halive])⟩

theorem Vouched.idle_lt (hv : c.Vouched entry) : c.net.now - entry.lastUse < entry.ttl := by
  simpa [Entry.isIdle] using hv.busy

/-- An entry that is fit for use and was used just now still is. -/
theorem Vouched.used (hv : c.Vouched entry) : c.Vouched { entry with lastUse := c.net.now } := by
  have hpos : entry.ttl ≠ 0 := Nat.ne_zero_of_lt hv.idle_lt
  exact ⟨by simpa [Entry.isIdle] using hpos, hv.alive⟩

/-- An entry that is fit for use is not stale. -/
theorem Vouched.fresh (hv : c.Vouched entry) :
    entry.isStale c.net.now (c.checkEntry entry).1 = false := by
  have halive := Network.not_dead_iff.1 hv.alive
  unfold checkEntry
  split <;> simp [Entry.isStale, hv.busy, halive]

theorem wanes_checkEntry (c : Cache) (entry : Entry) :
    c.net.Wanes (c.checkEntry entry).2.net := by
  unfold checkEntry
  split
  · exact .checkHop _ _
  · exact .refl _

theorem wanes_beginRelease (c : Cache) (id : CallId) (e : EntryId) :
    c.net.Wanes (c.beginRelease id e).net := by
  unfold beginRelease tellService
  split
  · exact .closeService _ _
  · exact .refl _

theorem wanes_endRelease (c : Cache) (id : CallId) (e : EntryId) :
    c.net.Wanes (c.endRelease id e).net := by
  unfold endRelease closeHop
  split
  · exact .closeHop _ _
  · exact .refl _

/-- Lodgers of a cache whose rows, outcomes and open entries are those of another. -/
theorem Lodged.of_views (hl : c'.Lodged e entry) (hrows : ∀ row ∈ c'.current, row ∈ c.current)
    (hready : ∀ slot e, c'.ready? slot = some e → c.ready? slot = some e)
    (hentries : ∀ entry, c'.entries[e]? = some entry → entry.closed = false →
      c.entries[e]? = some entry) : c.Lodged e entry := by
  obtain ⟨⟨key, slot, hrow, hr⟩, he, hopen⟩ := hl
  exact ⟨⟨key, slot, hrows _ hrow, hready slot e hr⟩, hentries entry he hopen, hopen⟩

/-- An entry that is closed is none that is open. -/
theorem getElem?_of_closed {old : Entry} (he : c.entries[e]? = some old) {i : EntryId}
    (hi : (c.setEntry e { old with closed := true }).entries[i]? = some entry)
    (hopen : entry.closed = false) : i ≠ e ∧ c.entries[i]? = some entry := by
  by_cases hie : i = e
  · subst hie
    rw [entries_setEntry_self he] at hi
    obtain rfl := Option.some.inj hi
    cases hopen
  · exact ⟨hie, by rwa [setEntry, List.getElem?_set_ne (Ne.symm hie)] at hi⟩

namespace Lodges

theorem refl (c : Cache) : c.Lodges c :=
  ⟨.refl _, fun _ _ hl => .inl hl⟩

theorem trans (h : c.Lodges c') (h' : c'.Lodges c'') : c.Lodges c'' :=
  ⟨h.wanes.trans h'.wanes, fun e entry hl =>
    (h'.lodged e entry hl).elim (h.lodged e entry) fun hv => .inr (hv.of_wanes h.wanes)⟩

/-- Rows go and entries are closed. -/
theorem of_views (hw : c.net.Wanes c'.net) (hrows : ∀ row ∈ c'.current, row ∈ c.current)
    (hready : ∀ slot e, c'.ready? slot = some e → c.ready? slot = some e)
    (hentries : ∀ (e : EntryId) (entry : Entry), c'.entries[e]? = some entry →
      entry.closed = false → c.entries[e]? = some entry) : c.Lodges c' :=
  ⟨hw, fun e _ hl => .inl (hl.of_views hrows hready (hentries e))⟩

/-- Rows go at most, and the slots and the entries stay as they are. -/
theorem thin (hw : c.net.Wanes c'.net) (hrows : ∀ row ∈ c'.current, row ∈ c.current)
    (hout : ∀ slot, c'.outcome? slot = c.outcome? slot) (hentries : c'.entries = c.entries) :
    c.Lodges c' :=
  of_views hw hrows (fun slot _ hr => (ready?_congr (hout slot)).symm.trans hr)
    fun _ _ he _ => hentries ▸ he

/-- Asking hops and telling services and hops is nothing to the lodgers. -/
theorem tells {net : Network} (hw : c.net.Wanes net) (journal : List (CallId × Deed)) :
    c.Lodges { c with net, journal } :=
  thin hw (fun _ hr => hr) (fun _ => rfl) rfl

theorem checkEntry (c : Cache) (entry : Entry) : c.Lodges (c.checkEntry entry).2 := by
  have hw := c.wanes_checkEntry entry
  obtain ⟨net, hnet, -⟩ := c.checkEntry_eq entry
  rw [hnet] at hw ⊢
  exact tells hw _

theorem beginRelease (c : Cache) (id : CallId) (e : EntryId) : c.Lodges (c.beginRelease id e) := by
  have hw := c.wanes_beginRelease id e
  obtain ⟨net, hnet⟩ := c.beginRelease_eq id e
  rw [hnet] at hw ⊢
  exact tells hw _

theorem endRelease (c : Cache) (id : CallId) (e : EntryId) : c.Lodges (c.endRelease id e) := by
  have hw := c.wanes_endRelease id e
  obtain ⟨net, hnet⟩ := c.endRelease_eq id e
  rw [hnet] at hw ⊢
  exact tells hw _

/-- An entry that is vouched for is used. -/
theorem used (he : c.entries[e]? = some entry) (hv : c.Vouched entry) :
    c.Lodges (c.setEntry e { entry with lastUse := c.net.now }) := by
  refine ⟨.refl _, fun i entry' hl => ?_⟩
  obtain ⟨hheld, he', hopen'⟩ := hl
  by_cases hi : i = e
  · subst hi
    rw [entries_setEntry_self he] at he'
    obtain rfl := Option.some.inj he'
    exact .inr hv.used
  · rw [setEntry, List.getElem?_set_ne (Ne.symm hi)] at he'
    exact .inl ⟨hheld, he', hopen'⟩

/-- An entry is claimed. -/
theorem claimed (he : c.entries[e]? = some entry) :
    c.Lodges (c.setEntry e { entry with closed := true }) :=
  of_views (.refl _) (fun _ hr => hr) (fun _ _ hr => hr)
    fun _ _ he' hopen' => (getElem?_of_closed he he' hopen').2

/-- The slot that a key gets holds nothing. -/
theorem slotFor (hnone : c.current.lookup key = none) : c.Lodges (c.slotFor key).2 := by
  have hout := outcome?_slotFor hnone
  refine ⟨by rw [slotFor_of_none hnone]; exact .refl _, fun i entry' hl => .inl ?_⟩
  obtain ⟨⟨k, s, hrow, hr⟩, he', hopen'⟩ := hl
  rw [ready?_congr (hout s)] at hr
  have hlt : s < c.slots.length := lt_of_outcome? (ready?_eq_some_iff.1 hr)
  rw [slotFor_of_none hnone] at hrow he'
  refine ⟨⟨k, s, ?_, hr⟩, he', hopen'⟩
  rcases List.mem_append.1 hrow with hrow | hrow
  · exact hrow
  · obtain ⟨-, rfl⟩ := Prod.mk.inj (List.mem_singleton.1 hrow)
    exact absurd hlt (Nat.lt_irrefl _)

/-- A move of a call that has no factory call in progress. -/
theorem move (hb : h.building = none) (hm : Move id op (c, h) (c', h')) : c.Lodges c' := by
  have hsplit : ∀ {pre post : List (Fingerprint × SlotId)} {row : Fingerprint × SlotId},
      c.current = pre ++ row :: post → ∀ r ∈ pre ++ post, r ∈ c.current :=
    fun hrow r hr => (mem_split_iff hrow).2 (.inr hr)
  cases hm with
  | round | skip | promote | leave => exact tells (.refl _) _
  | keep => exact checkEntry c _
  | @touch _ _ e entry he hopen hfresh =>
    have hw := c.wanes_checkEntry entry
    obtain ⟨net, hnet, -⟩ := c.checkEntry_eq entry
    rw [hnet] at hw ⊢
    exact (used he (vouched_of_fresh hopen hfresh)).trans
      (thin hw (fun _ hr => hr) (fun _ => rfl) rfl)
  | @evict _ _ pre post key slot e entry hrow hready he hopen hstale =>
    have hclaimed := (checkEntry c entry).trans (claimed (by rwa [checkEntry_entries]))
    obtain ⟨net, hnet, -⟩ := c.checkEntry_eq entry
    rw [hnet] at hclaimed ⊢
    exact hclaimed.trans (thin (.refl _) (hsplit hrow) (fun _ => rfl) rfl)
  | forget hrow | withdraw hrow => exact thin (.refl _) (hsplit hrow) (fun _ => rfl) rfl
  | claim hslot hready he hopen => exact (claimed he).trans (tells (.refl _) _)
  | tell => exact beginRelease c id _
  | finish => exact endRelease c id _
  | place hnone => exact slotFor hnone
  | build => exact thin (.refl _) (fun _ hr => hr) (fun s => outcome?_setBuilder s) rfl
  | queue =>
    exact thin (.refl _) (fun _ hr => hr) (fun s => outcome?_updateSlot (by intro; rfl) s) rfl
  | settle r hb' | fail err hb' | panic hb' =>
    rw [hb] at hb'
    cases hb'

theorem walk {s s' : Cache × Hand} (hw : Walk id op s s') : s.1.Lodges s'.1 := by
  induction hw with
  | refl => exact refl _
  | tail _ hm ih => exact ih.trans (move hm.1 hm.2)

/-! ## Stretches and builds -/

/-- What the calls are waiting for is nothing to the lodgers. -/
theorem calls (h : c.Lodges c') (calls : List Call) : c.Lodges { c' with calls } :=
  ⟨h.wanes, h.lodged⟩

theorem goes (hg : Goes Performs c id c') : c.Lodges c' := by
  rcases hg with rfl | ⟨call, r, hcall, hlive, hp, rfl⟩
  · exact refl _
  · exact (walk hp.walk).calls _

theorem call (hop : op ≠ .shutdown) (c : Cache) : c.Lodges (c.call op).2 :=
  (walk (performs_begin c.calls.length op hop c).walk).calls _

theorem observe {o : Outcome} (ho : c.outcome? slot = some o) (id : CallId) (key : Fingerprint)
    (builtHere : Bool) (left : Nat) : c.Lodges (c.observe id key slot builtHere left o).2 :=
  walk (performs_observe ho).walk

end Lodges

/-- An open entry that is looked at after it was built stays open only if it is fit for use. -/
theorem vouched_of_observe {builtHere : Bool} {left : Nat} (he : c.entries[e]? = some entry)
    (hopen : entry.closed = false)
    (hleft : (c.observe id key slot builtHere left (.ready e)).2.isOpen e = true) :
    c.Vouched entry := by
  have hnow : c.isOpen e = true := isOpen_eq_true_iff.2 ⟨entry, he, hopen⟩
  -- Whoever claims the entry leaves it closed.
  have hclaimed : ∀ c' : Cache, c'.entries = (c.setEntry e { entry with closed := true }).entries →
      (c'.beginRelease id e).isOpen e = false := by
    intro c' hentries
    obtain ⟨net, hnet⟩ := c'.beginRelease_eq id e
    rw [hnet]
    refine (isOpen_congr hentries).trans ?_
    rw [isOpen_setEntry he, if_pos rfl]
    rfl
  cases hcur : c.isCurrent key slot with
  | true =>
    rcases c.access_cases id e with ⟨entry', he', -, hfresh, -⟩ | ⟨entry', he', -, -, heq⟩ |
      ⟨hclosed, -⟩
    · obtain rfl : entry = entry' := Option.some.inj (he.symm.trans he')
      exact vouched_of_fresh hopen hfresh
    · obtain rfl : entry = entry' := Option.some.inj (he.symm.trans he')
      simp only [observe, hcur, if_true, use, heq] at hleft
      rw [hclaimed] at hleft
      · cases hleft
      · simp [entries_forget, note, setEntry]
    · rw [hnow] at hclosed
      cases hclosed
  | false =>
    rcases c.markClosed_cases id e with ⟨entry', he', -, heq⟩ | ⟨hclosed, -⟩
    · obtain rfl : entry = entry' := Option.some.inj (he.symm.trans he')
      simp only [observe, hcur, Bool.false_eq_true, if_false, heq] at hleft
      rw [hclaimed] at hleft
      · cases hleft
      · rfl
    · rw [hnow] at hclosed
      cases hclosed

namespace Lodges

/-- A new entry comes into the map vouched for or not at all. -/
theorem settle (hf : Filed c c.hands) (hslot : slot < c.slots.length) (id : CallId)
    (left : Nat) (r : Resource) :
    c.Lodges (({ c with entries := c.entries ++ [Entry.fresh key r c.net.now c.ttl] }.conclude slot
      (.ready c.entries.length)).observe id key slot true left (.ready c.entries.length)).2 := by
  set c₀ :=
    ({ c with entries := c.entries ++ [Entry.fresh key r c.net.now c.ttl] } : Cache).conclude slot
      (.ready c.entries.length)
  have hout : c₀.outcome? slot = some (.ready c.entries.length) := outcome?_conclude_self hslot
  have hafter := observe hout id key true left
  refine ⟨hafter.wanes, fun e entry hl => ?_⟩
  rcases hafter.lodged e entry hl with ⟨⟨k, s, hrow, hready⟩, he, hopen⟩ | hv
  · rcases hf.ready?_settle hslot hready with ⟨-, rfl⟩ | ⟨hne, hready⟩
    · -- The new entry would be closed if it were not fit for use.
      have hv : c₀.Vouched entry := vouched_of_observe he hopen hl.isOpen
      exact .inr ⟨hv.busy, hv.alive⟩
    · exact .inl ⟨⟨k, s, hrow, hready⟩, (getElem?_append_of_ne _ hne).symm.trans he, hopen⟩
  · exact .inr ⟨hv.busy, hv.alive⟩

/-- The factory call of a call has ended. -/
theorem built (hc : c.Sound) (hf : Filed c c.hands) (id : CallId) (b : Built) :
    c.Lodges (c.built id b) := by
  unfold Cache.built
  split
  · rename_i key left slot ha
    have hslot : slot < c.slots.length := hc.lt_of_building ha
    cases b with
    | panicked =>
      exact of_views (.refl _) (fun _ hr => hr)
        (fun s e hr => (ready?_congr (outcome?_updateSlot (by intro; rfl) s)).symm.trans hr)
        fun _ _ he _ => he
    | failed err =>
      have hfailed : c.Lodges (c.conclude slot (.failed err)) := by
        refine of_views (.refl _) (fun _ hr => hr) (fun s e hr => ?_) fun _ _ he _ => he
        by_cases hs : slot = s
        · subst hs
          simp [ready?, outcome?_conclude_self hslot] at hr
        · exact (ready?_congr (outcome?_updateSlot_of_ne _ hs)).symm.trans hr
      exact (hfailed.trans (observe (outcome?_conclude_self hslot) id key true left)).calls _
    | resource r => exact (settle hf hslot id left r).calls _
  · exact refl c

end Lodges

end Cache

end ConnectionBroker
