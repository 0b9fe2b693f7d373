import Mathlib.Data.List.Perm.Basic
import ConnectionBroker.Proofs.Cache.Sequential

/-!
# A cache as a shelf

Between two errands, a cache that one caller uses alone looks like a shelf (`Mirrors`) : every row
of its map has an open entry or an empty slot, left by a factory that panicked, and the open entries
are what is kept. The hops of what is kept, and those that are still to be closed or handed out
(`loose`), have nothing in common (`Fair`).

An operation changes what belongs to some keys and leaves the others alone (`Beside`). What a sweep
claims is what is stale on the shelf (`Mirrors.expire`). In every other change the row of one key
goes, or stands for something else (`Mirrors.replace`).
-/

namespace ConnectionBroker

/-- The hops have nothing in common, and the world has them as they were. -/
structure Network.Fair (n n' : Network) (hops : List Hop) : Prop where
  apart : hops.Pairwise n.Apart
  spared : ∀ hop ∈ hops, n.Spares n' hop

namespace Network.Fair

variable {n n' n'' : Network} {hops hops' : List Hop} {r : Resource}

theorem perm (h : n.Fair n' hops) (hp : hops.Perm hops') : n.Fair n' hops' :=
  ⟨(hp.pairwise_iff Apart.symm).1 h.apart, fun hop hmem => h.spared hop (hp.mem_iff.2 hmem)⟩

theorem sublist (h : n.Fair n' hops) (hs : hops'.Sublist hops) : n.Fair n' hops' :=
  ⟨h.apart.sublist hs, fun hop hmem => h.spared hop (hs.subset hmem)⟩

theorem congr (h : n.Fair n' hops) (ht : n''.tunnels = n'.tunnels)
    (hs : n''.sessions = n'.sessions) : n.Fair n'' hops :=
  ⟨h.apart, fun hop hmem => (h.spared hop hmem).congr ht hs⟩

/-- A hop that is closed leaves the others as they were. -/
theorem closeHop {hop : Hop} (h : n.Fair n' (hop :: hops)) : n.Fair (n'.closeHop hop) hops := by
  obtain ⟨hap, hrest⟩ := List.pairwise_cons.1 h.apart
  exact ⟨hrest, fun hop' hmem => (h.spared hop' (List.mem_cons_of_mem _ hmem)).closeHop
    (h.spared hop List.mem_cons_self) (hap hop' hmem)⟩

/-- What is released is seen to be closed, and leaves the others as they were. -/
theorem release (h : n.Fair n' (r.hop :: hops)) : n.Fair (n'.release r) hops := by
  have htold : n.Fair (n'.closeService r.service) (r.hop :: hops) := h.congr rfl rfl
  exact htold.closeHop

theorem releaseAll {rs : List Resource} (h : n.Fair n' (rs.map (·.hop) ++ hops)) :
    n.Fair (rs.foldl Network.release n') hops ∧
      (rs.foldl Network.release n').now = n'.now ∧
      (rs.foldl Network.release n').log =
        ((rs.flatMap n.closes).map (n'.now, ·)).reverse ++ n'.log := by
  induction rs generalizing n' with
  | nil => exact ⟨h, rfl, rfl⟩
  | cons r rs ih =>
    obtain ⟨hfair, hnow, hlog⟩ := ih h.release
    refine ⟨hfair, hnow.trans (now_release n' r), ?_⟩
    rw [List.foldl_cons, hlog, log_release (h.spared r.hop List.mem_cons_self), now_release]
    simp

end Network.Fair

namespace Cache

variable {c c' c'' : Cache} {n : Network} {ttl : Nat} {loose loose' : List Hop} {s s' : Shelf}
  {id : CallId} {key : Fingerprint} {slot : SlotId} {row : Fingerprint × SlotId} {k : Shelved}

/-- The slot of a row is empty and nobody is at it, or it holds an open entry of its key. -/
def Stands (c : Cache) (row : Fingerprint × SlotId) : Prop :=
  c.slots[row.2]? = some ⟨row.1, none, [], none⟩ ∨
    ∃ e entry, c.slots[row.2]? = some ⟨row.1, none, [], some (.ready e)⟩ ∧
      c.entries[e]? = some entry ∧ entry.key = row.1 ∧ entry.closed = false ∧ entry.ttl = c.ttl

/-- What is kept in a row. -/
def kept? (c : Cache) (row : Fingerprint × SlotId) : Option Shelved :=
  (c.ready? row.2).bind fun e =>
    c.entries[e]?.map fun entry => ⟨row.1, entry.resource, entry.lastUse⟩

/-- The cache looks like a shelf, in a world that comes from another one. -/
structure Mirrors (n : Network) (ttl : Nat) (loose : List Hop) (c : Cache) (s : Shelf) : Prop where
  now : c.net.now = s.now
  ttl : c.ttl = ttl
  keys : (c.current.map Prod.fst).Nodup
  rows : ∀ row ∈ c.current, c.Stands row
  items : (c.current.filterMap c.kept?).Perm s.items
  /-- The hops of what is kept, and those that are to be closed or handed out. -/
  fair : n.Fair c.net (s.items.map (·.resource.hop) ++ loose)

/-- A later cache differs only in what belongs to some keys. -/
structure Beside (P : Fingerprint → Prop) (c c' : Cache) : Prop where
  ttl : c'.ttl = c.ttl
  slots : ∀ (i : SlotId) (x : Slot), c.slots[i]? = some x → ¬P x.key → c'.slots[i]? = some x
  entries : ∀ (i : EntryId) (x : Entry), c.entries[i]? = some x → ¬P x.key → c'.entries[i]? = some x

theorem Beside.refl (P : Fingerprint → Prop) (c : Cache) : Beside P c c :=
  ⟨rfl, fun _ _ h _ => h, fun _ _ h _ => h⟩

theorem Beside.trans {P : Fingerprint → Prop} (h : Beside P c c') (h' : Beside P c' c'') :
    Beside P c c'' :=
  ⟨h'.ttl.trans h.ttl, fun i slot hs hk => h'.slots i slot (h.slots i slot hs hk) hk,
    fun i entry he hk => h'.entries i entry (h.entries i entry he hk) hk⟩

theorem Beside.mono {P Q : Fingerprint → Prop} (h : Beside P c c') (hsub : ∀ key, P key → Q key) :
    Beside Q c c' :=
  ⟨h.ttl, fun i slot hs hk => h.slots i slot hs fun hp => hk (hsub _ hp),
    fun i entry he hk => h.entries i entry he fun hp => hk (hsub _ hp)⟩

theorem Beside.note {P : Fingerprint → Prop} (h : Beside P c c') (id : CallId) (d : Deed) :
    Beside P c (c'.note id d) :=
  ⟨h.ttl, h.slots, h.entries⟩

/-! ## Rows -/

theorem ready?_of_empty (h : c.slots[slot]? = some ⟨key, none, [], none⟩) :
    c.ready? slot = none := by
  simp [ready?, outcome?, h]

theorem ready?_of_ready {e : EntryId} (h : c.slots[slot]? = some ⟨key, none, [], some (.ready e)⟩) :
    c.ready? slot = some e := by
  simp [ready?, outcome?, h]

/-- What is kept in a row has the key of the row. -/
theorem key_of_kept? (h : c.kept? row = some k) : k.key = row.1 := by
  obtain ⟨e, -, hk⟩ := Option.bind_eq_some_iff.1 h
  obtain ⟨entry, -, rfl⟩ := Option.map_eq_some_iff.1 hk
  rfl

/-- A row with an empty slot keeps nothing; in another one an open entry is kept. -/
theorem Stands.cases (h : c.Stands (key, slot)) :
    (c.slots[slot]? = some ⟨key, none, [], none⟩ ∧ c.ready? slot = none ∧
      c.kept? (key, slot) = none) ∨
    ∃ e entry, c.slots[slot]? = some ⟨key, none, [], some (.ready e)⟩ ∧ c.ready? slot = some e ∧
      c.entries[e]? = some entry ∧ entry.key = key ∧ entry.closed = false ∧ entry.ttl = c.ttl ∧
        c.kept? (key, slot) = some ⟨key, entry.resource, entry.lastUse⟩ := by
  rcases h with h | ⟨e, entry, hslot, he, hkey, hopen, httl⟩
  · have hready : c.ready? slot = none := ready?_of_empty h
    exact .inl ⟨h, hready, by simp [kept?, hready]⟩
  · have hready : c.ready? slot = some e := ready?_of_ready hslot
    exact .inr ⟨e, entry, hslot, hready, he, hkey, hopen, httl, by simp [kept?, hready, he]⟩

/-- Rows of other keys stand as they stood. -/
theorem Beside.stands {P : Fingerprint → Prop} (hb : Beside P c c') (h : c.Stands row)
    (hrow : ¬P row.1) : c'.Stands row ∧ c'.kept? row = c.kept? row := by
  obtain ⟨key, slot⟩ := row
  rcases h.cases with ⟨hslot, -, hkept⟩ | ⟨e, entry, hslot, -, he, hkey, hopen, httl, hkept⟩
  · have hslot' := hb.slots _ _ hslot hrow
    refine ⟨.inl hslot', ?_⟩
    rw [hkept, kept?, ready?_of_empty hslot', Option.bind_none]
  · have hslot' := hb.slots _ _ hslot hrow
    have he' := hb.entries _ _ he (hkey ▸ hrow)
    refine ⟨.inr ⟨e, entry, hslot', he', hkey, hopen, httl.trans hb.ttl.symm⟩, ?_⟩
    rw [hkept, kept?, ready?_of_ready hslot', Option.bind_some, he', Option.map_some]

/-! ## Sweeping -/

/-- What a row keeps is stale. -/
def staleRow (n : Network) (c : Cache) (row : Fingerprint × SlotId) : Bool :=
  (c.kept? row).any (·.stale c.ttl n.lives c.net.now)

/-- A hop that is as it was is asked without a trace, and says what the clock says. -/
theorem checkEntry_of_spares (hn : n.Tireless) {entry : Entry} (hopen : entry.closed = false)
    (hs : n.Spares c.net entry.resource.hop) (key : Fingerprint) :
    ∃ alive, c.checkEntry entry = (alive, c) ∧ entry.isStale c.net.now alive =
      Shelved.stale entry.ttl n.lives c.net.now ⟨key, entry.resource, entry.lastUse⟩ := by
  unfold checkEntry Entry.asks
  rw [Network.checkHop_of_spares hn hs, hopen]
  cases hidle : entry.isIdle c.net.now with
  | true =>
    have hle : entry.ttl ≤ c.net.now - entry.lastUse := of_decide_eq_true hidle
    exact ⟨true, rfl, by simp [Entry.isStale, hidle, Shelved.stale, hle]⟩
  | false =>
    have hlt : ¬entry.ttl ≤ c.net.now - entry.lastUse := of_decide_eq_false hidle
    exact ⟨_, rfl, by simp [Entry.isStale, hidle, Shelved.stale, hlt]⟩

theorem tryExpire_of_check {e : EntryId} {entry : Entry} {alive : Bool}
    (he : c.entries[e]? = some entry) (hopen : entry.closed = false)
    (hcheck : c.checkEntry entry = (alive, c)) :
    c.tryExpire id e = if entry.isStale c.net.now alive then
      (true, (c.setEntry e { entry with closed := true }).note id (.claim e)) else (false, c) := by
  simp only [tryExpire, he, hcheck, Entry.tryExpire, hopen, Bool.not_false, Bool.true_and]
  cases entry.isStale c.net.now alive with
  | true => rfl
  | false =>
    rw [if_neg Bool.false_ne_true, if_neg Bool.false_ne_true]
    dsimp only
    rw [setEntry_self he]

/-- An entry that is claimed leaves alone what belongs to other keys. -/
theorem beside_setEntry {e : EntryId} {old : Entry} (he : c.entries[e]? = some old)
    (hkey : old.key = key) (entry : Entry) : Beside (· = key) c (c.setEntry e entry) := by
  refine ⟨rfl, fun _ _ h _ => h, fun i x hx hne => ?_⟩
  have hi : e ≠ i := by
    rintro rfl
    rw [he] at hx
    exact hne (Option.some.inj hx ▸ hkey)
  rwa [setEntry, List.getElem?_set_ne hi]

/-- The rows that are not stale keep what is not stale. -/
theorem filterMap_fresh (n : Network) (c : Cache) (rows : List (Fingerprint × SlotId)) :
    (rows.filter fun row => !c.staleRow n row).filterMap c.kept? =
      (rows.filterMap c.kept?).filter fun k => !k.stale c.ttl n.lives c.net.now := by
  rw [List.filter_filterMap, List.filterMap_filter]
  refine List.filterMap_congr fun row _ => ?_
  cases hk : c.kept? row with
  | none => simp
  | some k => simp [staleRow, hk, Option.filter_some]

/-- The keys of the rows that are stale. -/
def StaleKey (n : Network) (c : Cache) (rows : List (Fingerprint × SlotId))
    (key : Fingerprint) : Prop :=
  ∃ row ∈ rows, c.staleRow n row = true ∧ row.1 = key

/-- What a sweep of some rows claims is what is stale in them, and nothing else changes. -/
structure Claims (n : Network) (id : CallId) (rows : List (Fingerprint × SlotId)) (c : Cache)
    (es : List EntryId) (c' : Cache) : Prop where
  run : claimStale id rows c = (es, rows.filter fun row => !c.staleRow n row, c')
  frame : ∃ entries journal, c' = { c with entries, journal }
  held : List.Forall₂ c'.Holds es
    (((rows.filterMap c.kept?).filter (·.stale c.ttl n.lives c.net.now)).map (·.resource))
  beside : Beside (StaleKey n c rows) c c'

section Claims

variable {rest : List (Fingerprint × SlotId)} {es : List EntryId} {e : EntryId} {entry : Entry}
  {c₁ : Cache}

/-- Rows of other keys are as stale as they were. -/
theorem Beside.rows {P : Fingerprint → Prop} (hb : Beside P c c₁) (hnet : c₁.net = c.net)
    (hrows : ∀ row ∈ rest, c.Stands row) (hother : ∀ row ∈ rest, ¬P row.1) :
    ∀ row ∈ rest, c₁.Stands row ∧ c₁.kept? row = c.kept? row ∧
      c₁.staleRow n row = c.staleRow n row := by
  intro row hmem
  obtain ⟨hstands, hkept⟩ := hb.stands (hrows row hmem) (hother row hmem)
  exact ⟨hstands, hkept, by rw [staleRow, hkept, hb.ttl, hnet, staleRow]⟩

/-- A row in which nothing is stale stays. -/
theorem Claims.keep (h : Claims n id rest c es c') (hfresh : c.staleRow n row = false)
    (hrun : claimStale id (row :: rest) c = ((claimStale id rest c).1,
      row :: (claimStale id rest c).2.1, (claimStale id rest c).2.2)) :
    Claims n id (row :: rest) c es c' := by
  refine ⟨?_, h.frame, ?_, h.beside.mono fun key ⟨row, hmem, hr⟩ =>
    ⟨row, List.mem_cons_of_mem _ hmem, hr⟩⟩
  · rw [hrun, h.run, List.filter_cons_of_pos (by simp [hfresh])]
  · cases hkept : c.kept? row with
    | none => rw [List.filterMap_cons_none hkept]; exact h.held
    | some k =>
      have hk : k.stale c.ttl n.lives c.net.now = false := by
        rw [staleRow, hkept] at hfresh
        exact hfresh
      rw [List.filterMap_cons_some hkept, List.filter_cons_of_neg (by simp [hk])]
      exact h.held

/-- An entry that is stale is claimed, and the other rows do not see that. -/
theorem Claims.claim (he : c.entries[e]? = some entry) (hkey : entry.key = key)
    (hkept : c.kept? (key, slot) = some ⟨key, entry.resource, entry.lastUse⟩)
    (hstale : c.staleRow n (key, slot) = true) (hother : ∀ row ∈ rest, ¬row.1 = key)
    (hc₁ : c₁ = ((c.setEntry e { entry with closed := true }).note id (.claim e)).note id
      (.forget slot))
    (hsame : ∀ row ∈ rest, c₁.Stands row ∧ c₁.kept? row = c.kept? row ∧
      c₁.staleRow n row = c.staleRow n row)
    (hrun : claimStale id ((key, slot) :: rest) c = (e :: (claimStale id rest c₁).1,
      (claimStale id rest c₁).2.1, (claimStale id rest c₁).2.2))
    (h : Claims n id rest c₁ es c') : Claims n id ((key, slot) :: rest) c (e :: es) c' := by
  have hbeside : Beside (· = key) c c₁ := hc₁ ▸ ((beside_setEntry he hkey _).note _ _).note _ _
  have hnet : c₁.net = c.net := hc₁ ▸ rfl
  have hkepts : rest.filterMap c₁.kept? = rest.filterMap c.kept? :=
    List.filterMap_congr fun row hmem => (hsame row hmem).2.1
  have hk : Shelved.stale c.ttl n.lives c.net.now ⟨key, entry.resource, entry.lastUse⟩ = true := by
    rw [staleRow, hkept] at hstale
    exact hstale
  refine ⟨?_, ?_, ?_, ?_⟩
  · rw [hrun, h.run, List.filter_cons_of_neg (by simp [hstale])]
    exact congrArg (fun rows => (e :: es, rows, c'))
      (List.filter_congr fun row hmem => by rw [(hsame row hmem).2.2])
  · obtain ⟨entries, journal, rfl⟩ := h.frame
    exact ⟨entries, journal, by rw [hc₁]; rfl⟩
  · have hheld := h.held
    rw [hkepts, hbeside.ttl, hnet] at hheld
    rw [List.filterMap_cons_some hkept, List.filter_cons_of_pos hk, List.map_cons]
    refine .cons ⟨{ entry with closed := true }, h.beside.entries e _ ?_ ?_, rfl⟩ hheld
    · rw [hc₁]
      exact entries_setEntry_self he _
    · rintro ⟨row, hmem, -, heq⟩
      exact hother row hmem (heq.trans hkey)
  · refine (hbeside.mono ?_).trans (h.beside.mono ?_)
    · rintro _ rfl
      exact ⟨_, List.mem_cons_self, hstale, rfl⟩
    · rintro key' ⟨row, hmem, hrow, heq⟩
      exact ⟨row, List.mem_cons_of_mem _ hmem, (hsame row hmem).2.2.symm.trans hrow, heq⟩

/-- A sweep claims what is stale in some rows. -/
theorem claims_rows (hn : n.Tireless) (id : CallId) (rows : List (Fingerprint × SlotId)) :
    ∀ c : Cache, (rows.map Prod.fst).Nodup → (∀ row ∈ rows, c.Stands row) →
      (∀ row ∈ rows, ∀ k ∈ c.kept? row, n.Spares c.net k.resource.hop) →
      ∃ es c', Claims n id rows c es c' := by
  induction rows with
  | nil => exact fun c _ _ _ => ⟨[], c, rfl, ⟨c.entries, c.journal, rfl⟩, .nil, .refl _ c⟩
  | cons row rest ih =>
    intro c hkeys hrows hspared
    obtain ⟨key, slot⟩ := row
    obtain ⟨hnew, hkeys'⟩ := List.nodup_cons.1 (List.map_cons ▸ hkeys)
    have hrows' : ∀ row ∈ rest, c.Stands row := fun row h => hrows row (List.mem_cons_of_mem _ h)
    have hspared' : ∀ row ∈ rest, ∀ k ∈ c.kept? row, n.Spares c.net k.resource.hop :=
      fun row h => hspared row (List.mem_cons_of_mem _ h)
    rcases (hrows _ List.mem_cons_self).cases with
      ⟨-, hready, hkept⟩ | ⟨e, entry, -, hready, he, hkey, hopen, httl, hkept⟩
    · obtain ⟨es, c', h⟩ := ih c hkeys' hrows' hspared'
      exact ⟨es, c', h.keep (by simp [staleRow, hkept]) (by simp [claimStale, hready])⟩
    · obtain ⟨alive, hcheck, hstale⟩ :=
        checkEntry_of_spares hn hopen (hspared _ List.mem_cons_self _ hkept) key
      have hhead : c.staleRow n (key, slot) = entry.isStale c.net.now alive := by
        rw [staleRow, hkept, hstale, httl]
        rfl
      have hexpire := @tryExpire_of_check c id e entry alive he hopen hcheck
      cases hs : entry.isStale c.net.now alive with
      | false =>
        rw [hs, if_neg Bool.false_ne_true] at hexpire
        obtain ⟨es, c', h⟩ := ih c hkeys' hrows' hspared'
        exact ⟨es, c', h.keep (hhead.trans hs) (by simp [claimStale, hready, hexpire])⟩
      | true =>
        rw [hs, if_pos rfl] at hexpire
        obtain ⟨c₁, hc₁⟩ : ∃ c₁, c₁ = ((c.setEntry e { entry with closed := true }).note id
          (.claim e)).note id (.forget slot) := ⟨_, rfl⟩
        have hother : ∀ row ∈ rest, ¬row.1 = key := fun row hmem heq =>
          hnew (List.mem_map.2 ⟨row, hmem, heq⟩)
        have hbeside : Beside (· = key) c c₁ :=
          hc₁ ▸ ((beside_setEntry he hkey _).note _ _).note _ _
        have hnet : c₁.net = c.net := hc₁ ▸ rfl
        have hsame := hbeside.rows (n := n) hnet hrows' hother
        obtain ⟨es, c', h⟩ := ih c₁ hkeys' (fun row hmem => (hsame row hmem).1)
          fun row hmem k hk => hnet ▸ hspared' row hmem k ((hsame row hmem).2.1 ▸ hk)
        exact ⟨e :: es, c', .claim he hkey hkept (hhead.trans hs) hother hc₁ hsame
          (by simp [claimStale, hready, hexpire, ← hc₁]) h⟩

end Claims

/-! ## The relation -/

namespace Mirrors

/-- Only the tables and the world matter. -/
theorem congr (hm : Mirrors n ttl loose c s) (hnow : c'.net.now = s.now) (httl : c'.ttl = c.ttl)
    (hcurrent : c'.current = c.current) (hslots : c'.slots = c.slots)
    (hentries : c'.entries = c.entries)
    (hfair : n.Fair c'.net (s.items.map (·.resource.hop) ++ loose')) :
    Mirrors n ttl loose' c' s := by
  have hb : Beside (fun _ => False) c c' :=
    ⟨httl, fun i x h _ => hslots ▸ h, fun i x h _ => hentries ▸ h⟩
  have hrow : ∀ row ∈ c.current, c'.Stands row ∧ c'.kept? row = c.kept? row := fun row h =>
    hb.stands (hm.rows row h) id
  refine ⟨hnow, httl.trans hm.ttl, hcurrent ▸ hm.keys, fun row h => (hrow row (hcurrent ▸ h)).1,
    ?_, hfair⟩
  rw [hcurrent, List.filterMap_congr fun row h => (hrow row h).2]
  exact hm.items

/-- A shelf is what stands on it. -/
theorem of_items (hm : Mirrors n ttl loose c s) (hnow : s'.now = s.now)
    (hitems : s'.items.Perm s.items) : Mirrors n ttl loose c s' :=
  ⟨hm.now.trans hnow.symm, hm.ttl, hm.keys, hm.rows, hm.items.trans hitems.symm,
    hm.fair.perm (List.Perm.append_right _ (hitems.symm.map _))⟩

/-- The time moves on. -/
theorem wait (hm : Mirrors n ttl loose c s) (t : Nat) :
    Mirrors n ttl loose { c with net := c.net.setClock t } (s.wait t) := by
  have hclock : Mirrors n ttl loose { c with net := { c.net with now := s.now } } s :=
    hm.congr rfl rfl rfl rfl rfl (hm.fair.congr rfl rfl)
  exact ⟨congrArg (max · t) hm.now, hm.ttl, hm.keys, hclock.rows, hclock.items,
    hm.fair.congr rfl rfl⟩

/-- The order of the map is of no account. -/
theorem reorder (hm : Mirrors n ttl loose c s) (rows : List (Fingerprint × SlotId)) :
    Mirrors n ttl loose (c.reorder rows) s := by
  unfold Cache.reorder
  split
  · rename_i hperm
    have hrows : rows.Perm c.current := List.isPerm_iff.1 hperm
    exact ⟨hm.now, hm.ttl, (hrows.map _).nodup_iff.2 hm.keys,
      fun row h => hm.rows row (hrows.mem_iff.1 h), (hrows.filterMap _).trans hm.items, hm.fair⟩
  · exact hm

/-- What is kept has a hop that is as it was. -/
theorem spared (hm : Mirrors n ttl loose c s) (h : row ∈ c.current) (hk : c.kept? row = some k) :
    n.Spares c.net k.resource.hop := by
  refine hm.fair.spared _ (List.mem_append_left _ (List.mem_map.2 ⟨k, ?_, rfl⟩))
  exact hm.items.mem_iff.1 (List.mem_filterMap.2 ⟨row, h, hk⟩)

/-- What is found on the shelf is what is kept in the key's row. -/
theorem find? (hm : Mirrors n ttl loose c s) (key : Fingerprint) :
    s.find? key = (c.current.lookup key).bind fun slot => c.kept? (key, slot) := by
  refine Option.ext fun k => ?_
  rw [Shelf.find?_eq_some_iff, ← hm.items.mem_iff, List.mem_filterMap, Option.bind_eq_some_iff]
  constructor
  · rintro ⟨⟨⟨key', slot⟩, hmem, hk⟩, rfl⟩
    obtain rfl : k.key = key' := key_of_kept? hk
    exact ⟨slot, lookup_of_mem hm.keys hmem, hk⟩
  · rintro ⟨slot, hlookup, hk⟩
    exact ⟨⟨_, mem_of_isCurrent (by simp [isCurrent, hlookup]), hk⟩, key_of_kept? hk⟩

/-- The rows of the other keys keep what the shelf keeps under other keys. -/
theorem others (hm : Mirrors n ttl loose c s) (key : Fingerprint) :
    ((c.current.filter (·.1 != key)).filterMap c.kept?).Perm (s.keep (·.key != key)).items := by
  refine .trans (.of_eq ?_) (hm.items.filter (·.key != key))
  rw [List.filter_filterMap, List.filterMap_filter]
  refine List.filterMap_congr fun row _ => ?_
  cases hk : c.kept? row with
  | none => simp
  | some k =>
    rw [Option.filter_some, key_of_kept? hk]

/-- Something becomes of one key, and the other keys stay as they are. -/
theorem replace (hm : Mirrors n ttl loose c s) (hb : Beside (· = key) c c')
    (own : List (Fingerprint × SlotId)) (hown : (own.map Prod.fst).Nodup)
    (hstands : ∀ row ∈ own, row.1 = key ∧ c'.Stands row)
    (hcurrent : c'.current.Perm (own ++ c.current.filter (·.1 != key)))
    (hnow : c'.net.now = s'.now)
    (hitems : s'.items.Perm (own.filterMap c'.kept? ++ (s.keep (·.key != key)).items))
    (hfair : n.Fair c'.net (s'.items.map (·.resource.hop) ++ loose')) :
    Mirrors n ttl loose' c' s' := by
  have hother : ∀ row ∈ c.current.filter (·.1 != key),
      c'.Stands row ∧ c'.kept? row = c.kept? row := by
    intro row h
    obtain ⟨hmem, hne⟩ := List.mem_filter.1 h
    exact hb.stands (hm.rows row hmem) (by simpa using hne)
  refine ⟨hnow, hb.ttl.trans hm.ttl, ?_, fun row h => ?_, ?_, hfair⟩
  · rw [(hcurrent.map Prod.fst).nodup_iff, List.map_append, List.nodup_append]
    refine ⟨hown, (List.filter_sublist.map _).nodup hm.keys, ?_⟩
    intro a ha b hb heq
    obtain ⟨row, hrow, rfl⟩ := List.mem_map.1 ha
    obtain ⟨row', hrow', rfl⟩ := List.mem_map.1 hb
    have hne := (List.mem_filter.1 hrow').2
    rw [← heq, (hstands row hrow).1] at hne
    simp at hne
  · rcases List.mem_append.1 (hcurrent.mem_iff.1 h) with h | h
    · exact (hstands row h).2
    · exact (hother row h).1
  · refine (hcurrent.filterMap _).trans ?_
    rw [List.filterMap_append, List.filterMap_congr fun row h => (hother row h).2]
    exact ((hm.others key).append_left _).trans hitems.symm

/-- What a sweep claims is what is stale on the shelf. -/
theorem expire (hn : n.Tireless) (hm : Mirrors n ttl loose c s) (id : CallId) :
    ∃ es rs entries journal current,
      c.expire id = (es, { c with entries, journal, current }) ∧
      List.Forall₂ ({ c with entries, journal, current } : Cache).Holds es rs ∧
      rs.Perm ((s.staleItems ttl n.lives).map (·.resource)) ∧
      es.length ≤ c.current.length ∧
      Mirrors n ttl (rs.map (·.hop) ++ loose) { c with entries, journal, current }
        (s.fresh ttl n.lives) := by
  obtain ⟨es, c', hclaims⟩ := claims_rows hn id c.current c hm.keys hm.rows fun row h k hk =>
    hm.spared h hk
  obtain ⟨entries, journal, rfl⟩ := hclaims.frame
  have hdropped : (((c.current.filterMap c.kept?).filter (·.stale c.ttl n.lives c.net.now)).map
      (·.resource)).Perm ((s.staleItems ttl n.lives).map (·.resource)) := by
    rw [hm.ttl, hm.now]
    exact (hm.items.filter _).map _
  obtain ⟨c₁, hc₁⟩ : ∃ c₁, c₁ = { c with
    entries, journal, current := c.current.filter fun row => !c.staleRow n row } := ⟨_, rfl⟩
  have hbeside : Beside (StaleKey n c c.current) c c₁ := by
    rw [hc₁]
    exact ⟨hclaims.beside.ttl, hclaims.beside.slots, hclaims.beside.entries⟩
  have hrow : ∀ row ∈ c.current.filter fun row => !c.staleRow n row,
      c₁.Stands row ∧ c₁.kept? row = c.kept? row := by
    intro row h
    obtain ⟨hmem, hfresh⟩ := List.mem_filter.1 h
    refine hbeside.stands (hm.rows row hmem) ?_
    rintro ⟨row', hmem', hstale, hkey⟩
    obtain rfl : row' = row := List.inj_on_of_nodup_map hm.keys hmem' hmem hkey
    simp [hstale] at hfresh
  refine ⟨es, _, entries, journal, c.current.filter fun row => !c.staleRow n row, ?_, hclaims.held,
    hdropped, ?_, ?_⟩
  · rw [Cache.expire, hclaims.run]
  · rw [hclaims.held.length_eq, List.length_map]
    exact Nat.le_trans (List.length_filter_le _ _) (List.length_filterMap_le _ _)
  · rw [hc₁] at hrow
    refine ⟨hm.now, hm.ttl, (List.filter_sublist.map _).nodup hm.keys, fun row h => (hrow row h).1,
      ?_, hm.fair.perm ?_⟩
    · refine .trans (.of_eq (List.filterMap_congr fun row h => (hrow row h).2)) ?_
      rw [filterMap_fresh, hm.ttl, hm.now]
      exact hm.items.filter _
    · rw [← List.append_assoc]
      refine List.Perm.append_right _ ?_
      have hsplit : ((s.fresh ttl n.lives).items ++ s.staleItems ttl n.lives).Perm s.items :=
        List.perm_append_comm.trans (List.filter_append_perm _ _)
      have hhops := (hdropped.map (·.hop)).trans (.of_eq List.map_map)
      refine (hsplit.map (·.resource.hop)).symm.trans ?_
      rw [List.map_append]
      exact hhops.symm.append_left _

end Mirrors

end Cache

end ConnectionBroker
