import ConnectionBroker.Proofs.Cache.Mirror

/-!
# How a call concludes

A call that goes on by itself comes to its end in some steps, with a result, with calls of the
factory, and with what it left in the log, and then the cache looks like a shelf again
(`Concludes`). Here are the ends that involve no factory : at once, after one release
(`concludes_told`), and after a whole batch of them (`concludes_batch`).
-/

namespace ConnectionBroker

namespace Cache

variable {c c' d : Cache} {n : Network} {ttl steps steps' : Nat} {ahead loose : List Hop}
  {s s' : Shelf} {f : Factory} {id : CallId} {op : Operation} {e : EntryId} {r : Resource}
  {res : Result} {a : Activity} {p : Activity × Cache}

/-- A call is where a stretch of it has led. -/
structure At (id : CallId) (p : Activity × Cache) (c : Cache) : Prop where
  activity : c.activity? id = some p.1
  net : c.net = p.2.net
  ttl : c.ttl = p.2.ttl
  current : c.current = p.2.current
  slots : c.slots = p.2.slots
  entries : c.entries = p.2.entries

theorem at_resume (h : id < p.2.calls.length) : At id p (resume id p) :=
  ⟨activity?_resume h, rfl, rfl, rfl, rfl, rfl⟩

/-- A call that begins is where its first stretch has led. -/
theorem at_call (hop : op ≠ .shutdown) (c : Cache) :
    At c.calls.length (begin c.calls.length c op) (c.step (.call op)) := by
  have hcalls : (begin c.calls.length c op).2.calls = c.calls :=
    (moves_frame (performs_begin _ op hop c).moves).1
  refine ⟨?_, rfl, rfl, rfl, rfl, rfl⟩
  simp [step, call, activity?, hcalls]

/-- Where a call is, the cache looks as its stretch left it. -/
theorem At.mirrors (hc : At id p c) (hm : Mirrors n ttl loose p.2 s) : Mirrors n ttl loose c s :=
  hm.congr (by rw [hc.net, hm.now]) hc.ttl hc.current hc.slots hc.entries (hc.net ▸ hm.fair)

theorem At.holds (hc : At id p c) (h : p.2.Holds e r) : c.Holds e r := by
  obtain ⟨entry, he, hr⟩ := h
  exact ⟨entry, hc.entries ▸ he, hr⟩

/-- The call comes to its end, and the cache looks like a shelf. -/
def Concludes (n : Network) (ttl : Nat) (ahead : List Hop) (f : Factory) (id : CallId)
    (steps : Nat) (c : Cache) (res : Result) (builds : List Fingerprint)
    (log : List (Nat × Happening)) (s : Shelf) : Prop :=
  ∃ c', Settles f id steps c builds c' ∧ c'.result? id = some res ∧ c'.net.log = log ∧
    Mirrors n ttl ahead c' s

theorem Concludes.mono {builds : List Fingerprint} {log : List (Nat × Happening)}
    (h : Concludes n ttl ahead f id steps c res builds log s) (hle : steps ≤ steps') :
    Concludes n ttl ahead f id steps' c res builds log s := by
  obtain ⟨c', hs, hrest⟩ := h
  exact ⟨c', fun m hm => hs m (Nat.le_trans hle hm), hrest⟩

theorem concludes_ended (hc : At id (.ended res, d) c) (hm : Mirrors n ttl ahead d s) :
    Concludes n ttl ahead f id 0 c res [] d.net.log s :=
  ⟨c, .ended hc.activity, by rw [result?, hc.activity], by rw [hc.net], hc.mirrors hm⟩

/-- A call that has told a service to close, and sees it closed. -/
theorem At.endRelease (hd : d.Holds e r) (hc : At id (a, d.beginRelease id e) c) :
    ∃ journal, c.endRelease id e = { c with net := d.net.release r, journal } ∧
      c.ttl = d.ttl ∧ c.current = d.current ∧ c.slots = d.slots ∧ c.entries = d.entries := by
  rw [beginRelease_of_holds hd] at hc
  refine ⟨c.journal ++ [(id, .serviceClosed e), (id, .closeHop e)], ?_, hc.ttl, hc.current,
    hc.slots, hc.entries⟩
  rw [endRelease_of_holds (hc.holds hd), hc.net]
  rfl

/-- A call that has told one service to close, and ends when that is done. -/
theorem concludes_told (hm : Mirrors n ttl (r.hop :: ahead) d s) (hd : d.Holds e r)
    (hc : At id (a, d.beginRelease id e) c) (ha : a.releasing? = some e)
    (hclose : ∀ c, afterClose id c a = (.ended res, c.endRelease id e)) :
    Concludes n ttl ahead f id 1 c res []
      (((n.closes r).map (s.now, ·)).reverse ++ d.net.log) s := by
  obtain ⟨journal, hrelease, httl, hcurrent, hslots, hentries⟩ := hc.endRelease hd
  have hfair : n.Fair d.net (r.hop :: (s.items.map (·.resource.hop) ++ ahead)) :=
    hm.fair.perm List.perm_middle
  have hend : At id (.ended res, { c with net := d.net.release r, journal })
      (resume id (afterClose id c a)) := by
    rw [hclose, hrelease]
    exact at_resume (lt_of_activity? hc.activity)
  have hm' : Mirrors n ttl ahead { c with net := d.net.release r, journal } s :=
    hm.congr ((Network.now_release _ _).trans hm.now) httl hcurrent hslots hentries hfair.release
  obtain ⟨c', hs, hrest⟩ := concludes_ended (f := f) hend hm'
  have hlog : (d.net.release r).log = ((n.closes r).map (s.now, ·)).reverse ++ d.net.log := by
    rw [← hm.now]
    exact Network.log_release (hfair.spared _ List.mem_cons_self)
  rw [← hlog]
  exact ⟨c', .release hc.activity ha hs, hrest⟩

/-- The state of a call that begins to release a batch of entries, and goes on at once if there are
none. -/
def batch (id : CallId) (busy : EntryId → List EntryId → Activity)
    (next : Cache → Activity × Cache) (es : List EntryId) (d : Cache) : Activity × Cache :=
  match es with
  | [] => next d
  | e :: rest => (busy e rest, d.beginRelease id e)

/-- A call that releases a batch of entries concludes as it does with all of them released. -/
theorem concludes_batch {busy : EntryId → List EntryId → Activity} {next : Cache → Activity × Cache}
    {es : List EntryId} {rs : List Resource} {builds : List Fingerprint}
    {log : List (Nat × Happening)}
    (hbusy : ∀ e rest, (busy e rest).releasing? = some e)
    (hlast : ∀ e c, afterClose id c (busy e []) = next (c.endRelease id e))
    (hmore : ∀ e e' rest c, afterClose id c (busy e (e' :: rest)) =
      (busy e' rest, (c.endRelease id e).beginRelease id e'))
    (hcalls : ∀ d, (next d).2.calls = d.calls)
    (hm : Mirrors n ttl (rs.map (·.hop) ++ loose) d s) (hd : List.Forall₂ d.Holds es rs)
    (hc : At id (batch id busy next es d) c)
    (hnext : ∀ d₁ c₁, d₁.net.log = ((rs.flatMap n.closes).map (s.now, ·)).reverse ++ d.net.log →
      Mirrors n ttl loose d₁ s → At id (next d₁) c₁ →
        Concludes n ttl ahead f id steps c₁ res builds log s') :
    Concludes n ttl ahead f id (steps + es.length) c res builds log s' := by
  cases hd with
  | nil => exact hnext d c rfl hm hc
  | @cons e r rest rs he hrest =>
    rw [batch, beginRelease_of_holds he] at hc
    have hheld : List.Forall₂ c.Holds rest rs := hrest.imp fun _ _ h => hc.holds h
    obtain ⟨journal, calls, hlt, hsettles⟩ :=
      settles_batch hbusy hlast hmore hc.activity (hc.holds he) hheld
    obtain ⟨d₁, hd₁⟩ : ∃ d₁, d₁ = { c with
      net := rs.foldl Network.release (c.net.closeHop r.hop), journal, calls } := ⟨_, rfl⟩
    rw [← hd₁] at hsettles
    have hnet : d₁.net = (r :: rs).foldl Network.release d.net := by
      rw [hd₁, hc.net]
      rfl
    have hperm : (s.items.map (·.resource.hop) ++ ((r :: rs).map (·.hop) ++ loose)).Perm
        ((r :: rs).map (·.hop) ++ (s.items.map (·.resource.hop) ++ loose)) := by
      rw [← List.append_assoc, ← List.append_assoc]
      exact List.perm_append_comm.append_right loose
    obtain ⟨hfair, hnow, hlog⟩ := (hm.fair.perm hperm).releaseAll
    have hm₁ : Mirrors n ttl loose d₁ s := by
      refine hm.congr ?_ ?_ ?_ ?_ ?_ (hnet ▸ hfair)
      · rw [hnet, hnow, hm.now]
      · rw [hd₁]; exact hc.ttl
      · rw [hd₁]; exact hc.current
      · rw [hd₁]; exact hc.slots
      · rw [hd₁]; exact hc.entries
    obtain ⟨c', hs, hrest⟩ := hnext d₁ (resume id (next d₁)) (by rw [hnet, hlog, hm.now])
      hm₁ (at_resume (by rw [hcalls, hd₁]; exact hlt))
    exact ⟨c', hsettles _ _ _ hs, hrest⟩

end Cache

end ConnectionBroker
