import ConnectionBroker.Proofs.Cache.Fetching

/-!
# The cache is a shelf

A cache that one caller uses alone does what a shelf does, errand after errand, with slots that a
panic left, flags and stale rounds out of sight. Every operation concludes as the shelf answers
(`agree_answer`), time and the order of the map change nothing (`Mirrors.wait`, `Mirrors.reorder`),
and so the replies are the same for every list of errands (`replies_agree`), as long as no hop that
is handed out has anything in common with another one and none dies of being asked.
-/

namespace ConnectionBroker

namespace Cache

variable {c c' d : Cache} {n : Network} {ttl steps : Nat} {ahead loose : List Hop}
  {s s' : Shelf} {f : Factory} {id : CallId} {op : Operation} {key : Fingerprint}

/-- What a cache shows of an errand is what a shelf says. What is dropped is closed in some order,
each service before its hop. -/
structure Reply.Agrees (n : Network) (a : Reply) (b : Shelf.Served) : Prop where
  result : a.result = some b.reply.result
  builds : a.builds = b.reply.builds
  happened : ∃ order : List Resource, order.Perm b.reply.dropped ∧
    a.happened = (order.flatMap n.closes).map (b.begun, ·) ++
      (b.reply.refused.toList.flatMap n.closes).map (b.done, ·)

/-- The cache and the shelf agree on what becomes of an errand, and look alike after it. -/
def Agree (n : Network) (ttl : Nat) (ahead : List Hop) (begun : Nat) (a : Reply × Cache)
    (b : Shelf.Reply × Shelf) : Prop :=
  a.1.Agrees n ⟨begun, b.1, b.2.now⟩ ∧ Mirrors n ttl ahead a.2 b.2

theorem since_of_log {log : List (Nat × Happening)} (h : c'.net.log = log.reverse ++ c.net.log) :
    c.since c' = log := by
  simp [since, h]

/-- A call that concludes as the shelf answers. -/
theorem agree_perform {reply : Shelf.Reply} {order : List Resource}
    (hsteps : steps ≤ c.current.length + 2) (horder : order.Perm reply.dropped)
    (h : Concludes n ttl ahead f c.calls.length steps (c.step (.call op)) reply.result reply.builds
      (((reply.refused.toList.flatMap n.closes).map (s'.now, ·)).reverse ++
        (((order.flatMap n.closes).map (s.now, ·)).reverse ++ c.net.log)) s') :
    Agree n ttl ahead s.now (c.perform op f) (reply, s') := by
  obtain ⟨c', hsettles, hresult, hlog, hm⟩ := h
  have hperform : c.perform op f =
      (⟨c'.result? c.calls.length, reply.builds, c.since c'⟩, c') := by
    rw [perform, hsettles _ hsteps]
  rw [← List.append_assoc, ← List.reverse_append] at hlog
  rw [hperform]
  exact ⟨⟨hresult, rfl, order, horder, since_of_log hlog⟩, hm⟩

/-- A call that ends at once. -/
theorem agree_ended {res : Result} (hop : op ≠ .shutdown)
    (hbegin : begin c.calls.length c op = (.ended res, d)) (hlog : d.net.log = c.net.log)
    (hm : Mirrors n ttl ahead d s') :
    Agree n ttl ahead s.now (c.perform op noFactory) (.plain res [], s') := by
  have hc : At c.calls.length (.ended res, d) (c.step (.call op)) := hbegin ▸ at_call hop c
  have hend := concludes_ended (f := noFactory) hc hm
  rw [hlog] at hend
  exact agree_perform (Nat.zero_le _) .nil hend

/-- A call that tells one service to close, and ends when that is done. -/
theorem agree_told {res : Result} {a : Activity} {e : EntryId} {k : Shelved} (hop : op ≠ .shutdown)
    (hbegin : begin c.calls.length c op = (a, d.beginRelease c.calls.length e))
    (ha : a.releasing? = some e)
    (hclose : ∀ c', afterClose c.calls.length c' a = (.ended res, c'.endRelease c.calls.length e))
    (hd : d.Holds e k.resource) (hlog : d.net.log = c.net.log)
    (hm : Mirrors n ttl (k.resource.hop :: ahead) d s') (hnow : s'.now = s.now) :
    Agree n ttl ahead s.now (c.perform op noFactory) (.plain res [k], s') := by
  have hc : At c.calls.length (a, d.beginRelease c.calls.length e) (c.step (.call op)) :=
    hbegin ▸ at_call hop c
  have hend := concludes_told (f := noFactory) hm hd hc ha hclose
  rw [hlog, hnow, ← List.flatMap_singleton n.closes k.resource] at hend
  exact agree_perform (Nat.le_add_left 1 _) (.refl _) hend

/-! ## The operations -/

/-- A sweep releases what is stale, and reports how many that were. -/
theorem agree_sweep (hn : n.Tireless) (hm : Mirrors n ttl ahead c s) :
    Agree n ttl ahead s.now (c.answer .sweep) (s.answer ttl n.lives .sweep) := by
  obtain ⟨es, rs, entries, journal, current, hexpire, hheld, hperm, hlen, hm'⟩ :=
    hm.expire hn c.calls.length
  have hcount : es.length = (s.staleItems ttl n.lives).length := by
    rw [hheld.length_eq, hperm.length_eq, List.length_map]
  have hbegin : begin c.calls.length c .sweep = batch c.calls.length
      (fun e rest => .sweeping e rest es.length) (fun d => (.ended (.count es.length), d)) es
      { c with entries, journal, current } := by
    rw [begin, hexpire]
    cases es <;> rfl
  have hsteps : 0 + es.length ≤ c.current.length + 2 := by omega
  refine agree_perform hsteps hperm (concludes_batch (fun _ _ => rfl) (fun _ _ => rfl)
    (fun _ _ _ _ => rfl) (fun _ => rfl) hm' hheld (hbegin ▸ at_call (by simp) c) ?_)
  intro d c' hlog hm₁ hc'
  rw [hcount] at hc'
  have hend := concludes_ended (f := noFactory) hc' hm₁
  rw [hlog] at hend
  exact hend

/-- A `get` drops what is stale, and fetches the service. -/
theorem agree_get (hn : n.Tireless) (hm : Mirrors n ttl (f.hop?.toList ++ ahead) c s)
    (key : Fingerprint) :
    Agree n ttl ahead s.now (c.answer (.get key f)) (s.answer ttl n.lives (.get key f)) := by
  have hround : Mirrors n ttl (f.hop?.toList ++ ahead) (c.note c.calls.length (.round key)) s :=
    hm.congr hm.now rfl rfl rfl rfl hm.fair
  obtain ⟨es, rs, entries, journal, current, hexpire, hheld, hperm, hlen, hm'⟩ :=
    hround.expire hn c.calls.length
  have hbegin : begin c.calls.length c (.get key) = batch c.calls.length
      (fun e rest => .getting key maxStaleRounds (.clearing e rest))
      (take c.calls.length key maxStaleRounds) es
      { c.note c.calls.length (.round key) with entries, journal, current } := by
    rw [begin, round, sweepFirst, hexpire]
    cases es <;> rfl
  have hcalls (d : Cache) : (take c.calls.length key maxStaleRounds d).2.calls = d.calls :=
    (moves_frame (performs_take c.calls.length key maxStaleRounds d).moves).1
  have hfresh : ∀ k ∈ (s.fresh ttl n.lives).items, Shelved.stale ttl n.lives s.now k = false :=
    fun k hk => by simpa using (List.mem_filter.1 hk).2
  have hsteps : 2 + es.length ≤ c.current.length + 2 := by
    have hlen' : es.length ≤ c.current.length := hlen
    omega
  refine agree_perform hsteps hperm (concludes_batch (fun _ _ => rfl) (fun _ _ => rfl)
    (fun _ _ _ _ => rfl) hcalls hm' hheld (hbegin ▸ at_call (by simp) c) ?_)
  intro d c' hlog hm₁ hc'
  have hend := concludes_fetch hn hm₁ hfresh hc'
  rw [hlog] at hend
  exact hend

/-- A `touch` uses what is kept, unless it is stale. -/
theorem agree_touch (hn : n.Tireless) (hm : Mirrors n ttl ahead c s) (key : Fingerprint) :
    Agree n ttl ahead s.now (c.answer (.touch key)) (s.answer ttl n.lives (.touch key)) := by
  cases hfind : s.find? key with
  | none =>
    have hbegin : begin c.calls.length c (.touch key) = (.ended (.flag false), c) := by
      rcases hm.unbound hfind with hnone | ⟨slot, hlookup, hslot⟩
      · simp [begin, touch, hnone]
      · simp [begin, touch, hlookup, ready?_of_empty hslot]
    rw [Shelf.answer, Shelf.touch, hfind]
    exact agree_ended (by simp) hbegin rfl hm
  | some k =>
    obtain ⟨slot, e, entry, hb, rfl⟩ := hm.bound hfind
    have haccess := access_of_bound hn hb (hm.spared_bound hb) c.calls.length
    rw [hm.ttl, hm.now] at haccess
    rw [Shelf.answer, Shelf.touch, hfind]
    dsimp only
    cases hstale : Shelved.stale ttl n.lives s.now ⟨key, entry.resource, entry.lastUse⟩ with
    | true =>
      rw [hstale, if_pos rfl] at haccess
      obtain ⟨d, hd⟩ : ∃ d, d = ((c.setEntry e { entry with closed := true }).note c.calls.length
        (.claim e)).forget c.calls.length key slot := ⟨_, rfl⟩
      obtain ⟨hheld, hnet, -, hm'⟩ := hm.evicted hb hd
      have hbegin : begin c.calls.length c (.touch key) =
          (.dropping e, d.beginRelease c.calls.length e) := by
        simp only [begin, touch, hb.lookup, ready?_of_ready hb.ready, haccess, hd]
      exact agree_told (by simp) hbegin rfl (fun _ => rfl) hheld (congrArg _ hnet) hm' rfl
    | false =>
      rw [hstale, if_neg Bool.false_ne_true, ← hm.now] at haccess
      have hbegin : begin c.calls.length c (.touch key) =
          (.ended (.flag true), c.setEntry e { entry with lastUse := c.net.now }) := by
        simp only [begin, touch, hb.lookup, ready?_of_ready hb.ready, haccess]
      exact agree_ended (by simp) hbegin rfl (hm.touched hb)

/-- A `close` releases what is kept under the key, stale or not. -/
theorem agree_close (hm : Mirrors n ttl ahead c s) (key : Fingerprint) :
    Agree n ttl ahead s.now (c.answer (.close key)) (s.answer ttl n.lives (.close key)) := by
  obtain ⟨current, journal, hwithdraw⟩ := c.withdraw_frame c.calls.length key
  cases hfind : s.find? key with
  | none =>
    have hm' := hm.withdrawn hfind c.calls.length
    have hbegin : begin c.calls.length c (.close key) =
        (.ended (.flag false), c.withdraw c.calls.length key) := by
      rcases hm.unbound hfind with hnone | ⟨slot, hlookup, hslot⟩
      · simp [begin, close, hnone]
      · simp [begin, close, hlookup, ready?_of_empty hslot]
    rw [Shelf.answer, Shelf.close, hfind]
    exact agree_ended (by simp) hbegin (by rw [hwithdraw]) hm'
  | some k =>
    obtain ⟨slot, e, entry, hb, rfl⟩ := hm.bound hfind
    have hcurrent := current_withdraw hm.keys c.calls.length key
    rw [hwithdraw] at hcurrent
    obtain ⟨d, hd⟩ : ∃ d, d = (({ c with current, journal }).setEntry e
      { entry with closed := true }).note c.calls.length (.claim e) := ⟨_, rfl⟩
    have hmark : ({ c with current, journal }).markClosed c.calls.length e = (true, d) := by
      simp [markClosed, hb.there, Entry.markClosed, hb.isOpen, hd]
    have hbegin : begin c.calls.length c (.close key) =
        (.closing e, d.beginRelease c.calls.length e) := by
      simp [begin, close, hb.lookup, ready?_of_ready hb.ready, hwithdraw, hmark]
    have hheld : d.Holds e entry.resource := by
      rw [hd]
      exact ⟨_, entries_setEntry_self hb.there _, rfl⟩
    rw [Shelf.answer, Shelf.close, hfind]
    have hm' : Mirrors n ttl (entry.resource.hop :: ahead) d (s.keep (·.key != key)) := by
      rw [hd]
      exact hm.claimed hb hcurrent rfl rfl rfl rfl
    exact agree_told (by simp) hbegin rfl (fun _ => rfl) hheld (by rw [hd]; rfl) hm' rfl

/-! ## Closing everything -/

/-- A cache without rows looks like a shelf without services. -/
theorem Mirrors.of_emptied (hcurrent : c.current = []) (hitems : s.items = [])
    (hnow : c.net.now = s.now) (httl : c.ttl = ttl) (hfair : n.Fair c.net loose) :
    Mirrors n ttl loose c s :=
  ⟨hnow, httl, by simp [hcurrent], by simp [hcurrent], by simp [hcurrent, hitems],
    by simpa [hitems] using hfair⟩

/-- The release of an open entry in a slot that was taken out of the map. -/
theorem drain_of_ready {released : Nat} {slot : SlotId} {rest : List SlotId} {e : EntryId}
    {entry : Entry} (hready : d.ready? slot = some e) (he : d.entries[e]? = some entry)
    (hopen : entry.closed = false) :
    drain id (slot :: rest) released d = (.draining e rest released,
      ((d.setEntry e { entry with closed := true }).note id (.claim e)).beginRelease id e) := by
  simp [drain, hready, markClosed, he, Entry.markClosed, hopen]

/-- A call that has claimed an entry, has told its service to close, and sees it closed. -/
theorem At.released {a : Activity} {e : EntryId} {entry : Entry} (he : d.entries[e]? = some entry)
    (hkey : entry.key = key) (hc : At id (a, ((d.setEntry e { entry with closed := true }).note id
      (.claim e)).beginRelease id e) c) :
    ∃ d', c.endRelease id e = d' ∧ d'.net = d.net.release entry.resource ∧ d'.calls = c.calls ∧
      d'.current = d.current ∧ Beside (· = key) d d' := by
  obtain ⟨d₁, hd₁⟩ : ∃ d₁, d₁ = (d.setEntry e { entry with closed := true }).note id (.claim e) :=
    ⟨_, rfl⟩
  have hheld : d₁.Holds e entry.resource := by
    rw [hd₁]
    exact ⟨_, entries_setEntry_self he _, rfl⟩
  have hbeside : Beside (· = key) d d₁ := hd₁ ▸ (beside_setEntry he hkey _).note _ _
  have hnet : d₁.net = d.net := hd₁ ▸ rfl
  have hsame : d₁.current = d.current := hd₁ ▸ rfl
  rw [← hd₁] at hc
  obtain ⟨journal, hrelease, httl, hcurrent, hslots, hentries⟩ := hc.endRelease hheld
  refine ⟨_, hrelease, by rw [hnet], rfl, hcurrent.trans hsame, httl.trans hbeside.ttl, ?_, ?_⟩
  · exact fun i x hx hne => hslots ▸ hbeside.slots i x hx hne
  · exact fun i x hx hne => hentries ▸ hbeside.entries i x hx hne

/-- A call that has the entries of some rows to release, all of which were taken out of the map. -/
theorem concludes_drain (rows : List (Fingerprint × SlotId)) :
    ∀ {released : Nat} {c d : Cache}, (rows.map Prod.fst).Nodup → (∀ row ∈ rows, d.Stands row) →
      d.current = [] → s.items = [] → d.net.now = s.now → d.ttl = ttl →
      n.Fair d.net ((rows.filterMap d.kept?).map (·.resource.hop) ++ ahead) →
      At id (drain id (rows.map Prod.snd) released d) c →
      Concludes n ttl ahead f id rows.length c
        (.count (released + (rows.filterMap d.kept?).length)) []
        (((((rows.filterMap d.kept?).map (·.resource)).flatMap n.closes).map (s.now, ·)).reverse ++
          d.net.log) s := by
  induction rows with
  | nil =>
    intro released c d _ _ hcurrent hitems hnow httl hfair hc
    exact concludes_ended hc (.of_emptied hcurrent hitems hnow httl hfair)
  | cons row rest ih =>
    intro released c d hkeys hrows hcurrent hitems hnow httl hfair hc
    obtain ⟨key, slot⟩ := row
    obtain ⟨hnew, hkeys'⟩ := List.nodup_cons.1 (List.map_cons ▸ hkeys)
    have hrows' : ∀ row ∈ rest, d.Stands row := fun row h => hrows row (List.mem_cons_of_mem _ h)
    rcases (hrows _ List.mem_cons_self).cases with
      ⟨-, hready, hkept⟩ | ⟨e, entry, -, hready, he, hkey, hopen, -, hkept⟩
    · have hdrain : drain id (((key, slot) :: rest).map Prod.snd) released d =
          drain id (rest.map Prod.snd) released d := by
        simp [drain, hready]
      rw [List.filterMap_cons_none hkept] at hfair ⊢
      exact (ih hkeys' hrows' hcurrent hitems hnow httl hfair (hdrain ▸ hc)).mono (Nat.le_succ _)
    · rw [List.map_cons, drain_of_ready hready he hopen] at hc
      rw [List.filterMap_cons_some hkept] at hfair ⊢
      obtain ⟨d₂, hd₂, hnet, hcalls₂, hcurrent₂, hbeside⟩ := hc.released he hkey
      have hnow' : d₂.net.now = s.now := by rw [hnet, Network.now_release, hnow]
      -- The other rows do not see that this entry is released.
      have hother : ∀ row ∈ rest, d₂.Stands row ∧ d₂.kept? row = d.kept? row := fun row hmem =>
        hbeside.stands (hrows' row hmem) fun heq => hnew (List.mem_map.2 ⟨row, hmem, heq⟩)
      have hkepts : rest.filterMap d₂.kept? = rest.filterMap d.kept? :=
        List.filterMap_congr fun row hmem => (hother row hmem).2
      have hfair' : n.Fair d₂.net ((rest.filterMap d₂.kept?).map (·.resource.hop) ++ ahead) := by
        rw [hnet, hkepts]
        exact hfair.release
      have hcalls : (drain id (rest.map Prod.snd) (released + 1) d₂).2.calls = c.calls := by
        rw [(moves_frame (@performs_drain id .closeAll (.inl rfl) _ _ _).moves).1, hcalls₂]
      have hend := ih hkeys' (fun row h => (hother row h).1) (hcurrent₂.trans hcurrent) hitems hnow'
        (hbeside.ttl.trans httl) hfair' (at_resume (hcalls ▸ lt_of_activity? hc.activity))
      rw [hkepts, hnet, Network.log_release (hfair.spared _ List.mem_cons_self), hnow] at hend
      obtain ⟨c', hs, hresult, hlog, hm⟩ := hend
      refine ⟨c', .release hc.activity rfl ?_, ?_, ?_, hm⟩
      · rw [afterClose, hd₂]
        exact hs
      · rw [hresult, List.length_cons, Nat.add_assoc, Nat.add_comm 1]
      · rw [hlog]
        simp

/-- A `closeAll` releases everything, and reports how many that were. -/
theorem agree_closeAll (hm : Mirrors n ttl ahead c s) :
    Agree n ttl ahead s.now (c.answer .closeAll) (s.answer ttl n.lives .closeAll) := by
  have hc : At c.calls.length (drain c.calls.length (c.current.map Prod.snd) 0
      (c.withdrawAll c.calls.length)) (c.step (.call .closeAll)) :=
    @at_call .closeAll (by simp) c
  have hfair : n.Fair c.net ((c.current.filterMap c.kept?).map (·.resource.hop) ++ ahead) :=
    hm.fair.perm (List.Perm.append_right _ (hm.items.symm.map _))
  have hend := concludes_drain (f := noFactory) (s := s.keep fun _ => false)
    (d := c.withdrawAll c.calls.length) c.current hm.keys hm.rows rfl (by simp [Shelf.keep]) hm.now
    hm.ttl hfair hc
  refine agree_perform (Nat.le_add_right _ 2) (hm.items.map _) ?_
  have hcount : (c.current.filterMap (c.withdrawAll c.calls.length).kept?).length =
      s.items.length := hm.items.length_eq
  rw [Nat.zero_add, hcount] at hend
  exact hend

/-! ## Looking -/

theorem size_of_rows (rows : List (Fingerprint × SlotId)) (h : ∀ row ∈ rows, c.Stands row) :
    ((rows.filterMap fun row => c.ready? row.2).filter c.isOpen).length =
      (rows.filterMap c.kept?).length := by
  induction rows with
  | nil => rfl
  | cons row rest ih =>
    have ih := ih fun row hmem => h row (List.mem_cons_of_mem _ hmem)
    obtain ⟨key, slot⟩ := row
    rcases (h _ List.mem_cons_self).cases with
      ⟨-, hready, hkept⟩ | ⟨e, entry, -, hready, he, -, hopen, -, hkept⟩
    · simp only [List.filterMap_cons, hready, hkept]
      exact ih
    · have hisOpen : c.isOpen e = true := by simp [isOpen, he, hopen]
      simp only [List.filterMap_cons, hready, hkept, List.filter_cons_of_pos hisOpen,
        List.length_cons, ih]

/-- The cache has an open entry of a key exactly if something is kept under it. -/
theorem contains_of_mirrors (hm : Mirrors n ttl loose c s) (key : Fingerprint) :
    c.contains key = (s.find? key).isSome := by
  cases hfind : s.find? key with
  | none =>
    rcases hm.unbound hfind with hnone | ⟨slot, hlookup, hslot⟩
    · simp [contains, Cache.find?, hnone]
    · simp [contains, Cache.find?, hlookup, ready?_of_empty hslot]
  | some k =>
    obtain ⟨slot, e, entry, hb, -⟩ := hm.bound hfind
    simp [contains, Cache.find?, hb.lookup, ready?_of_ready hb.ready, isOpen, hb.there, hb.isOpen]

/-- Looking at the cache changes nothing. -/
theorem agree_look {res : Result} (hm : Mirrors n ttl ahead c s) :
    Agree n ttl ahead s.now (⟨some res, [], []⟩, c) (.plain res [], s) :=
  ⟨⟨rfl, rfl, [], .nil, rfl⟩, hm⟩

/-! ## Errand after errand -/

/-- What becomes of an errand that has its turn now. -/
theorem agree_answer (hn : n.Tireless) (ask : Ask)
    (hm : Mirrors n ttl (ask.hop?.toList ++ ahead) c s) :
    Agree n ttl ahead s.now (c.answer ask) (s.answer ttl n.lives ask) := by
  cases ask with
  | get key f => exact agree_get hn hm key
  | touch key => exact agree_touch hn hm key
  | sweep => exact agree_sweep hn hm
  | close key => exact agree_close hm key
  | closeAll => exact agree_closeAll hm
  | size =>
    have hsize : c.size = s.items.length := (size_of_rows _ hm.rows).trans hm.items.length_eq
    rw [answer, hsize]
    exact agree_look hm
  | contains key =>
    rw [answer, contains_of_mirrors hm]
    exact agree_look hm

/-- What becomes of an errand. -/
theorem agree_serve (hn : n.Tireless) (t : Turn)
    (hm : Mirrors n ttl (t.errand.ask.hop?.toList ++ ahead) c s) :
    Agree n ttl ahead (s.wait t.errand.time).now (c.serve t) (s.serve ttl n.lives t.errand) :=
  agree_answer hn t.errand.ask ((hm.wait t.errand.time).reorder t.order)

theorem replies_of_mirrors (hn : n.Tireless) (turns : List Turn) :
    ∀ {c : Cache} {s : Shelf}, Mirrors n ttl (turns.filterMap (·.errand.ask.hop?)) c s →
      List.Forall₂ (Reply.Agrees n) (c.replies turns)
        (s.replies ttl n.lives (turns.map (·.errand))) := by
  induction turns with
  | nil => exact fun _ => .nil
  | cons t rest ih =>
    intro c s hm
    have hahead : (t :: rest).filterMap (·.errand.ask.hop?) =
        t.errand.ask.hop?.toList ++ rest.filterMap (·.errand.ask.hop?) := by
      cases h : t.errand.ask.hop? <;> simp [h]
    rw [hahead] at hm
    obtain ⟨hagrees, hm'⟩ := agree_serve hn t hm
    exact .cons hagrees (ih hm')

/-- A cache without anything in it looks like an empty shelf. -/
theorem mirrors_new {hops : List Hop} (h : hops.Pairwise n.Apart) :
    Mirrors n ttl hops { Cache.new ttl with net := n } (.empty n.now) :=
  .of_emptied rfl rfl rfl rfl ⟨h, fun _ _ => ⟨fun _ _ => rfl, fun _ _ => rfl⟩⟩

/-- What a cache does for somebody who uses it alone is what a shelf does, whatever is wanted of it
and when : every result, every call of the factory, and every service and hop that is closed. No
session counts how often it is asked, and the hops that are handed out have nothing in common, so
that it depends on the time alone which of them are alive. -/
theorem replies_agree (ttl : Nat) (turns : List Turn) (hn : n.Tireless)
    (hap : (turns.filterMap (·.errand.ask.hop?)).Pairwise n.Apart) :
    List.Forall₂ (Reply.Agrees n) (({ Cache.new ttl with net := n } : Cache).replies turns)
      ((Shelf.empty n.now).replies ttl n.lives (turns.map (·.errand))) :=
  replies_of_mirrors hn turns (mirrors_new hap)

/-- A session that is lost at 50, and one that lasts. -/
def twoSessions : Network :=
  { Network.empty with sessions :=
    [.fresh ⟨"h", 22, "u", .agent⟩ ⟨false, some 50, none, .echo⟩,
      .fresh ⟨"h", 22, "u", .agent⟩ .lasting] }

theorem tireless_twoSessions : twoSessions.Tireless := by
  show ∀ s ∈ twoSessions.sessions, s.checksLeft = none
  decide

/-- A factory panics in between, and the session of the other service is lost. -/
def panicBetween : List Turn :=
  [⟨⟨0, .get ⟨"a"⟩ ⟨5, .resource ⟨0, .channel 0⟩⟩⟩, []⟩, ⟨⟨10, .get ⟨"b"⟩ ⟨0, .panicked⟩⟩, []⟩,
    ⟨⟨60, .get ⟨"b"⟩ ⟨0, .resource ⟨1, .channel 1⟩⟩⟩, []⟩, ⟨⟨70, .closeAll⟩, []⟩]

/-- The slot that the panic left is built in, and only one service is left to be closed. -/
theorem replies_agree_after_panic :
    twoSessions.Tireless ∧
      (panicBetween.filterMap (·.errand.ask.hop?)).Pairwise twoSessions.Apart ∧
        (({ Cache.new 1000 with net := twoSessions } : Cache).replies panicBetween).map (·.result) =
          [some (.service 0), some .panicked, some (.service 1), some (.count 1)] := by
  have hap : (panicBetween.filterMap (·.errand.ask.hop?)).Pairwise twoSessions.Apart := by decide
  refine ⟨tireless_twoSessions, hap, ?_⟩
  have hagree := replies_agree 1000 panicBetween tireless_twoSessions hap
  calc (({ Cache.new 1000 with net := twoSessions } : Cache).replies panicBetween).map (·.result)
    _ = ((Shelf.empty 0).replies 1000 twoSessions.lives (panicBetween.map (·.errand))).map
        fun served => some served.reply.result := by
      rw [← List.forall₂_eq_eq_eq, List.forall₂_map_left_iff, List.forall₂_map_right_iff]
      exact hagree.imp fun _ _ h => h.result
    _ = _ := by decide

end Cache

end ConnectionBroker
