import Mathlib.Data.List.Induction
import Mathlib.Data.Multiset.Filter
import Mathlib.Data.Multiset.Range
import ConnectionBroker.Proofs.Cache.Teardown
import ConnectionBroker.Proofs.Network.Steady

/-!
# What a cache closes

Two kinds of deeds close something : a service is told to close, and a hop is closed
(`Cache.disposals`). All else that a call does closes nothing (`Cache.Quiet`); `move_cases` tells
the moves apart.

So the journal accounts for the world around the cache. What the deeds have closed
(`Cache.disposed`) can be closed in the world as it was before, in the same order, and the log has
gained just what is seen of that (`Cache.Shows`). This holds of every step that is not itself a
change of the world (`shows_step`), and of runs of such steps (`log_run`).
-/

namespace ConnectionBroker

/-! ## Closing in a network -/

/-- A service that is told to close, or a hop that is closed. -/
inductive Disposal where
  | service (service : ServiceId)
  | hop (hop : Hop)

namespace Network

variable {n n' n'' : Network}

/-- What a disposal leaves. -/
def dispose (n : Network) : Disposal → Network
  | .service s => n.closeService s
  | .hop hop => n.closeHop hop

/-- What can be seen of a disposal. -/
def shows (n : Network) : Disposal → List Happening
  | .service s => [.closeService s]
  | .hop hop => n.hopCloses hop

/-- What can be seen of some disposals, one after the other. -/
def showsAll (n : Network) : List Disposal → List Happening
  | [] => []
  | x :: xs => n.shows x ++ (n.dispose x).showsAll xs

@[simp] theorem now_dispose (n : Network) (x : Disposal) : (n.dispose x).now = n.now := by
  cases x with
  | service s => rfl
  | hop hop => exact now_closeHop n hop

/-- A disposal adds to the log what can be seen of it. -/
theorem log_dispose (n : Network) (x : Disposal) :
    (n.dispose x).log = ((n.shows x).map (n.now, ·)).reverse ++ n.log := by
  cases x with
  | service s => rfl
  | hop hop => exact log_closeHop ⟨fun _ _ => rfl, fun _ _ => rfl⟩

theorem log_disposeAll (xs : List Disposal) (n : Network) :
    (xs.foldl dispose n).log = ((n.showsAll xs).map (n.now, ·)).reverse ++ n.log := by
  induction xs generalizing n with
  | nil => rfl
  | cons x xs ih =>
    rw [List.foldl_cons, ih, now_dispose, log_dispose, showsAll, List.map_append,
      List.reverse_append, List.append_assoc]

/-- The same has happened, at whatever times, and the tunnels are as far. -/
structure Alike (n n' : Network) : Prop where
  happened : n'.log.map (·.2) = n.log.map (·.2)
  tunnels : n'.accounts.tunnels = n.accounts.tunnels

namespace Alike

theorem refl (n : Network) : n.Alike n :=
  ⟨rfl, rfl⟩

theorem trans (h : n.Alike n') (h' : n'.Alike n'') : n.Alike n'' :=
  ⟨h'.happened.trans h.happened, h'.tunnels.trans h.tunnels⟩

/-- How a tunnel is closed depends on how far it is and on the session that it has. -/
theorem closeTunnel (h : n.Alike n') (t : TunnelId) :
    (n.closeTunnel t).Alike (n'.closeTunnel t) := by
  cases hphase : n.accounts.tunnels[t]? with
  | none =>
    rw [closeTunnel_of_none hphase, closeTunnel_of_none (h.tunnels ▸ hphase)]
    exact h
  | some phase =>
    have hphase' : n'.accounts.tunnels[t]? = some phase := h.tunnels ▸ hphase
    by_cases hclosed : phase.1 = .closed
    · obtain ⟨state, session⟩ := phase
      obtain rfl : state = .closed := hclosed
      rw [closeTunnel_of_closed hphase, closeTunnel_of_closed hphase']
      exact h
    · refine ⟨?_, ?_⟩
      · obtain ⟨tunnel, ht, rfl⟩ := getElem?_tunnels_accounts.1 hphase
        obtain ⟨tunnel', ht', heq⟩ := getElem?_tunnels_accounts.1 hphase'
        obtain ⟨hstate, hsession⟩ := Prod.mk.inj heq
        have hgives : tunnel'.close.2 = tunnel.close.2 := by
          rw [Tunnel.close, Tunnel.close, if_neg hclosed, if_neg (hstate ▸ hclosed)]
          exact hsession
        simp [closeTunnel_of_row ht, closeTunnel_of_row ht', log_closeAny, hgives, setTunnel,
          h.happened, Function.comp_def]
      · rw [accounts_closeTunnel hphase hclosed, accounts_closeTunnel hphase' hclosed, h.tunnels]

theorem dispose (h : n.Alike n') (x : Disposal) : (n.dispose x).Alike (n'.dispose x) := by
  have hrecord : ∀ happening, (n.record happening).Alike (n'.record happening) :=
    fun happening => ⟨congrArg (happening :: ·) h.happened, h.tunnels⟩
  cases x with
  | service s => exact hrecord _
  | hop hop =>
    cases hop with
    | direct => exact h
    | channel s => exact ⟨(hrecord (.closeSession s)).happened, h.tunnels⟩
    | tunnel t => exact h.closeTunnel t

theorem disposeAll (h : n.Alike n') (xs : List Disposal) :
    (xs.foldl Network.dispose n).Alike (xs.foldl Network.dispose n') := by
  induction xs generalizing n n' with
  | nil => exact h
  | cons x xs ih => exact ih (h.dispose x)

end Alike

theorem log_checkHop (n : Network) (hop : Hop) : (n.checkHop hop).2.log = n.log := by
  have hsession : ∀ s, (n.checkSession s).2.log = n.log := by
    intro s
    unfold checkSession
    split <;> rfl
  cases hop with
  | direct => rfl
  | channel s => exact hsession s
  | tunnel t =>
    simp only [checkHop, checkTunnel]
    split
    · exact hsession _
    · rfl

end Network

/-! ## The deeds that close something -/

/-- The deed closes something. -/
def Deed.disposes : Deed → Bool
  | .tellService _ => true
  | .closeHop _ => true
  | _ => false

namespace Cache

variable {id : CallId} {op : Operation} {c c' c'' : Cache} {h h' : Hand} {e : EntryId}
  {r : Activity × Cache} {ev : Event}

/-- The deeds that closed something, in order. -/
def disposals (c : Cache) : List Deed :=
  (c.journal.map (·.2)).filter Deed.disposes

theorem disposals_of_append (ds : List Deed) (hj : c'.journal = c.journal ++ ds.map (id, ·)) :
    c'.disposals = c.disposals ++ ds.filter Deed.disposes := by
  simp [disposals, hj, List.filter_append, Function.comp_def]

theorem mem_disposals_iff_deedsOf {d : Deed} (hd : d.disposes = true) (ha : d.about = some e) :
    d ∈ c.disposals ↔ ∃ id, (id, d) ∈ c.deedsOf e := by
  simp [disposals, hd, mem_deedsOf, ha]

/-- A call that releases an entry has not closed its hop yet. -/
theorem Account.not_closed_of_releasing {H : CallId → Hand} (ha : Account c H)
    (hr : (H id).releasing = some e) :
    (∃ entry, c.entries[e]? = some entry) ∧ .closeHop e ∉ c.disposals := by
  have htold : c.deedsOf e = [(id, .claim e), (id, .tellService e)] := ha.releasing id e hr
  obtain ⟨entry, he, -⟩ := isClosed_eq_true_iff.1 ((ha.closed_iff e).2 (by simp [htold]))
  refine ⟨⟨entry, he⟩, fun hd => ?_⟩
  obtain ⟨i, hi⟩ := (mem_disposals_iff_deedsOf rfl rfl).1 hd
  simp [htold] at hi

/-- The resources of the entries. -/
def resources (c : Cache) : List Resource :=
  c.entries.map (·.resource)

theorem resources_setEntry {old entry : Entry} (he : c.entries[e]? = some old)
    (hr : entry.resource = old.resource) : (c.setEntry e entry).resources = c.resources := by
  obtain ⟨hlt, rfl⟩ := List.getElem?_eq_some_iff.1 he
  rw [resources, setEntry, List.map_set, hr, ← List.map_set, List.set_getElem_self, resources]

theorem resources_append (c : Cache) (entry : Entry) :
    ({ c with entries := c.entries ++ [entry] } : Cache).resources =
      c.resources ++ [entry.resource] := by
  simp [resources]

theorem getElem?_resources_append (c : Cache) (entry : Entry) (he : e ≠ c.entries.length) :
    ({ c with entries := c.entries ++ [entry] } : Cache).resources[e]? = c.resources[e]? := by
  have hlength : c.resources.length = c.entries.length := List.length_map _
  rw [resources_append, getElem?_append_of_ne _ (hlength.symm ▸ he)]

/-- Nothing was closed of an entry that was not there. -/
theorem about_ne_of_mem_disposals (hfresh : c.deedsOf c.entries.length = []) {d : Deed}
    (hd : d ∈ c.disposals) : d.about ≠ some c.entries.length := by
  intro habout
  obtain ⟨id, hmem⟩ := (mem_disposals_iff_deedsOf (List.mem_filter.1 hd).2 habout).1 hd
  rw [hfresh] at hmem
  cases hmem

/-- Nothing is opened or closed. -/
structure Quiet (c c' : Cache) : Prop where
  accounts : c'.net.accounts = c.net.accounts
  log : c'.net.log = c.net.log
  resources : c'.resources = c.resources
  disposals : c'.disposals = c.disposals

namespace Quiet

theorem trans (hq : c.Quiet c') (hq' : c'.Quiet c'') : c.Quiet c'' :=
  ⟨hq'.accounts.trans hq.accounts, hq'.log.trans hq.log, hq'.resources.trans hq.resources,
    hq'.disposals.trans hq.disposals⟩

/-- A call makes some notes in the journal. -/
theorem of_journal (hnet : c'.net = c.net) (hentries : c'.entries = c.entries) (ds : List Deed)
    (hj : c'.journal = c.journal ++ ds.map (id, ·)) (hds : ds.filter Deed.disposes = []) :
    c.Quiet c' :=
  ⟨by rw [hnet], by rw [hnet], by rw [Cache.resources, hentries, Cache.resources],
    by rw [disposals_of_append ds hj, hds, List.append_nil]⟩

/-- What has to do with neither the world nor the entries. -/
theorem of_frame (hnet : c'.net = c.net) (hentries : c'.entries = c.entries)
    (hj : c'.journal = c.journal) : c.Quiet c' :=
  ⟨by rw [hnet], by rw [hnet], by rw [Cache.resources, hentries, Cache.resources],
    by rw [Cache.disposals, hj, Cache.disposals]⟩

theorem checkEntry (c : Cache) (entry : Entry) : c.Quiet (c.checkEntry entry).2 := by
  unfold Cache.checkEntry
  split
  · exact ⟨c.net.accounts_checkHop _, c.net.log_checkHop _, rfl, rfl⟩
  · exact of_frame rfl rfl rfl

/-- An entry is used or claimed. -/
theorem setEntry {old : Entry} (he : c.entries[e]? = some old) (new : Entry)
    (hr : new.resource = old.resource) : c.Quiet (c.setEntry e new) :=
  ⟨rfl, rfl, resources_setEntry he hr, rfl⟩

/-- An entry is used or claimed after its hop was asked. -/
theorem checked {old : Entry} (he : c.entries[e]? = some old) (new : Entry)
    (hr : new.resource = old.resource) : c.Quiet ((c.checkEntry old).2.setEntry e new) :=
  (checkEntry c old).trans (.setEntry (by rwa [checkEntry_entries]) new hr)

end Quiet

/-- A move tells a service to close, closes a hop, makes an entry of what was built, or opens and
closes nothing. -/
theorem move_cases (hm : Move id op (c, h) (c', h')) :
    c.Quiet c' ∨ (∃ e, c' = c.beginRelease id e) ∨
      (∃ e, h.releasing = some e ∧ c' = c.endRelease id e) ∨
        ∃ key slot r, h.building = some (key, slot) ∧ Quiet
          { c with entries := c.entries ++ [Entry.fresh key r c.net.now c.ttl] } c' := by
  cases hm with
  | round key => exact .inl (.of_journal rfl rfl [.round key] rfl rfl)
  | keep => exact .inl (.checkEntry c _)
  | touch he => exact .inl (.checked he _ rfl)
  | @evict _ _ _ _ _ slot e entry _ _ he =>
    exact .inl ((Quiet.checked he { entry with closed := true } rfl).trans
      (.of_journal rfl rfl [.claim e, .forget slot] (List.append_assoc _ _ _) rfl))
  | @forget _ _ _ _ _ slot => exact .inl (.of_journal rfl rfl [.forget slot] rfl rfl)
  | @withdraw _ _ _ _ key slot => exact .inl (.of_journal rfl rfl [.withdraw key slot] rfl rfl)
  | @claim _ _ _ e entry _ _ he =>
    exact .inl ((Quiet.setEntry he { entry with closed := true } rfl).trans
      (.of_journal rfl rfl [.claim e] rfl rfl))
  | @tell _ _ e => exact .inr (.inl ⟨e, rfl⟩)
  | @finish _ _ e hr => exact .inr (.inr (.inl ⟨e, hr, rfl⟩))
  | place hnone =>
    rw [slotFor_of_none hnone]
    exact .inl (.of_frame rfl rfl rfl)
  | @build _ _ _ slot | @promote _ _ _ slot =>
    exact .inl (.of_journal rfl rfl [.build slot] rfl rfl)
  | skip | queue | leave | fail | panic => exact .inl (.of_frame rfl rfl rfl)
  | settle r hb => exact .inr (.inr (.inr ⟨_, _, r, hb, .of_frame rfl rfl rfl⟩))

/-! ## What is not released yet -/

/-- The entries whose hops are not closed. -/
def unreleased (c : Cache) : Multiset EntryId :=
  (Multiset.range c.resources.length).filter fun e => .closeHop e ∉ c.disposals

/-- What is released stays so, as long as nothing is built. -/
theorem unreleased_le (hresources : c'.resources = c.resources)
    (hdisposals : c.disposals ⊆ c'.disposals) : c'.unreleased ≤ c.unreleased := by
  rw [unreleased, hresources]
  exact Multiset.monotone_filter_right _ fun e he hd => he (hdisposals hd)

/-- Once its hop is closed, an entry is released. -/
theorem unreleased_of_closeHop (hresources : c'.resources = c.resources)
    (hdisposals : c'.disposals = c.disposals ++ [.closeHop e]) (hlt : e < c.resources.length)
    (hfirst : .closeHop e ∉ c.disposals) : c.unreleased = e ::ₘ c'.unreleased := by
  have hmem : e ∈ c.unreleased := by simp [unreleased, hlt, hfirst]
  have hnodup : c.unreleased.Nodup := (Multiset.nodup_range _).filter _
  have herase : c'.unreleased = c.unreleased.erase e := by
    rw [hnodup.erase_eq_filter, unreleased, unreleased, hresources, hdisposals,
      Multiset.filter_filter]
    refine Multiset.filter_congr fun i _ => ?_
    simp [and_comm, eq_comm]
  rw [herase, Multiset.cons_erase hmem]

theorem resources_beginRelease (c : Cache) (id : CallId) (e : EntryId) :
    (c.beginRelease id e).resources = c.resources := by
  obtain ⟨net, hnet⟩ := c.beginRelease_eq id e
  rw [hnet]
  rfl

theorem resources_endRelease (c : Cache) (id : CallId) (e : EntryId) :
    (c.endRelease id e).resources = c.resources := by
  obtain ⟨net, hnet⟩ := c.endRelease_eq id e
  rw [hnet]
  rfl

theorem disposals_beginRelease (c : Cache) (id : CallId) (e : EntryId) :
    (c.beginRelease id e).disposals = c.disposals ++ [.tellService e] := by
  obtain ⟨net, hnet⟩ := c.beginRelease_eq id e
  exact disposals_of_append [.tellService e] (by rw [hnet]; rfl)

theorem disposals_endRelease (c : Cache) (id : CallId) (e : EntryId) :
    (c.endRelease id e).disposals = c.disposals ++ [.closeHop e] := by
  obtain ⟨net, hnet⟩ := c.endRelease_eq id e
  exact disposals_of_append [.serviceClosed e, .closeHop e] (by rw [hnet]; rfl)

/-- A call that ends the release of an entry closes its hop for the first time. -/
theorem unreleased_of_releasing (ha : Account c c.hands) (hrel : (c.hands id).releasing = some e) :
    c.unreleased = e ::ₘ (c.endRelease id e).unreleased := by
  obtain ⟨⟨entry, he⟩, hfirst⟩ := ha.not_closed_of_releasing hrel
  obtain ⟨hlt, -⟩ := List.getElem?_eq_some_iff.1 he
  exact unreleased_of_closeHop (resources_endRelease c id e) (disposals_endRelease c id e)
    (by simpa [resources] using hlt) hfirst

/-- A call that builds nothing makes no entry. -/
theorem resources_walk {s s' : Cache × Hand} (hw : Walk id op s s') :
    s'.1.resources = s.1.resources := by
  induction hw with
  | refl => rfl
  | tail _ hm ih =>
    rcases move_cases hm.2 with hq | ⟨e, heq⟩ | ⟨e, -, heq⟩ | ⟨_, _, _, hb, -⟩
    · exact hq.resources.trans ih
    · rw [heq, resources_beginRelease, ih]
    · rw [heq, resources_endRelease, ih]
    · rw [hm.1] at hb
      cases hb

/-! ## What was closed -/

/-- What a deed closes. -/
def disposal? (c : Cache) : Deed → Option Disposal
  | .tellService e => c.resources[e]?.map fun r => .service r.service
  | .closeHop e => c.resources[e]?.map fun r => .hop r.hop
  | _ => none

/-- What was closed, in order. -/
def disposed (c : Cache) : List Disposal :=
  c.disposals.filterMap c.disposal?

/-- Every deed that closes something closes a service or a hop of an entry. -/
theorem Account.map_disposal? {H : CallId → Hand} (ha : Account c H) :
    c.disposals.map c.disposal? = c.disposed.map some := by
  rw [disposed, List.map_filterMap_some_eq_filter_map_isSome, List.filter_eq_self.2]
  intro x hx
  obtain ⟨d, hd, rfl⟩ := List.mem_map.1 hx
  have hdisposes := (List.mem_filter.1 hd).2
  have hentry : ∀ e, d.about = some e → ∃ entry, c.entries[e]? = some entry := by
    intro e habout
    obtain ⟨id, hmem⟩ := (mem_disposals_iff_deedsOf hdisposes habout).1 hd
    obtain ⟨entry, he, -⟩ :=
      isClosed_eq_true_iff.1 ((ha.closed_iff e).2 (List.ne_nil_of_mem hmem))
    exact ⟨entry, he⟩
  cases d with
  | tellService e | closeHop e =>
    obtain ⟨entry, he⟩ := hentry e rfl
    simp [disposal?, resources, he]
  | _ => cases hdisposes

theorem disposal?_congr (hresources : c'.resources = c.resources) : c'.disposal? = c.disposal? := by
  funext d
  cases d <;> simp [disposal?, hresources]

/-- All that the log has gained is what can be seen of what was closed since, but for the times. -/
def Shows (c c' : Cache) : Prop :=
  ∃ xs, c'.disposed = c.disposed ++ xs ∧ (xs.foldl Network.dispose c.net).Alike c'.net

namespace Shows

/-- Nothing was closed. -/
theorem of_alike (hnet : c.net.Alike c'.net) (hdisposed : c'.disposed = c.disposed) : c.Shows c' :=
  ⟨[], by rw [hdisposed, List.append_nil], hnet⟩

theorem refl (c : Cache) : c.Shows c :=
  .of_alike (.refl _) rfl

theorem trans : c.Shows c' → c'.Shows c'' → c.Shows c''
  | ⟨xs, hxs, hnet⟩, ⟨ys, hys, hnet'⟩ =>
    ⟨xs ++ ys, by rw [hys, hxs, List.append_assoc], by
      rw [List.foldl_append]
      exact (hnet.disposeAll ys).trans hnet'⟩

theorem of_quiet (hq : c.Quiet c') : c.Shows c' :=
  .of_alike ⟨by rw [hq.log], by rw [hq.accounts]⟩
    (by rw [disposed, hq.disposals, disposal?_congr hq.resources, disposed])

/-- A deed closes what it is about. -/
theorem of_deed {d : Deed} (hresources : c'.resources = c.resources)
    (hdisposals : c'.disposals = c.disposals ++ [d])
    (hnet : c'.net = (c.disposal? d).toList.foldl Network.dispose c.net) : c.Shows c' := by
  refine ⟨(c.disposal? d).toList, ?_, hnet ▸ .refl _⟩
  rw [disposed, hdisposals, disposal?_congr hresources, List.filterMap_append, disposed]
  cases hd : c.disposal? d <;> simp [hd]

theorem beginRelease (c : Cache) (id : CallId) (e : EntryId) : c.Shows (c.beginRelease id e) := by
  refine .of_deed (resources_beginRelease c id e) (disposals_beginRelease c id e) ?_
  cases he : c.entries[e]? <;>
    simp [Cache.beginRelease, tellService, note, disposal?, resources, he, Network.dispose]

theorem endRelease (c : Cache) (id : CallId) (e : EntryId) : c.Shows (c.endRelease id e) := by
  refine .of_deed (resources_endRelease c id e) (disposals_endRelease c id e) ?_
  cases he : c.entries[e]? <;>
    simp [Cache.endRelease, closeHop, note, disposal?, resources, he, Network.dispose]

/-- A new entry has nothing to do with what was closed before. -/
theorem append (hfresh : c.deedsOf c.entries.length = []) (entry : Entry) :
    c.Shows { c with entries := c.entries ++ [entry] } := by
  refine .of_alike (.refl _) (List.filterMap_congr fun d hd => ?_)
  have habout := about_ne_of_mem_disposals hfresh hd
  cases d with
  | tellService e | closeHop e =>
    rw [disposal?, disposal?,
      getElem?_resources_append c entry fun he => habout (congrArg some he)]
  | _ => rfl

/-- The log and the journal keep step, move by move. -/
theorem moves {s s' : Cache × Hand} {H : CallId → Hand} (hm : Moves id op s s')
    (ha : Account s.1 (Function.update H id s.2)) : s.1.Shows s'.1 := by
  induction hm with
  | refl => exact refl _
  | @tail m _ hpre hm ih =>
    refine ih.trans ?_
    rcases move_cases hm with hq | ⟨e, heq⟩ | ⟨e, -, heq⟩ | ⟨_, _, _, -, hq⟩
    · exact of_quiet hq
    · exact heq ▸ beginRelease m.1 id e
    · exact heq ▸ endRelease m.1 id e
    · have ham := (kept_account fun _ => True).moves hpre ha
      exact (append ham.deedsOf_length _).trans (of_quiet hq)

/-- What the calls are waiting for is nothing to the log. -/
theorem calls (h : c.Shows c') (calls : List Call) : c.Shows { c' with calls } :=
  h

theorem start (ha : Account c c.hands) (hp : Performs c.calls.length op (c, {}) r) :
    c.Shows { r.2 with calls := r.2.calls ++ [⟨op, r.1⟩] } := by
  exact (moves hp.moves (by rwa [update_hands_length])).calls _

theorem goes (ha : Account c c.hands) (hg : Goes Resumes c id c') : c.Shows c' := by
  rcases hg with rfl | ⟨call, r, hcall, -, hp, rfl⟩
  · exact refl _
  · exact (moves hp.moves (by rwa [update_hands_of_call hcall])).calls _

/-- A cancelled call closes nothing. -/
theorem abort (c : Cache) (id : CallId) : c.Shows (c.abort id) := by
  rcases c.abort_cases id with ⟨hself, -⟩ | ⟨call, hcall, hlive⟩
  · rw [hself]
    exact refl c
  · have hnone : ∀ es : List EntryId, (es.map Deed.abandon).filter Deed.disposes = [] := by
      simp [List.filter_eq_nil_iff, Deed.disposes]
    have hj := journal_abort hcall hlive
    obtain ⟨slots, calls, journal, heq⟩ := c.abort_frame id
    rw [heq] at hj ⊢
    exact of_quiet (.of_journal rfl rfl _ (hj.trans (by rw [List.map_map]; rfl)) (hnone _))

theorem stopSweeper (c : Cache) : c.Shows c.stopSweeper := by
  have hnone : c.Shows { c with sweeper := none } := refl c
  rcases c.stopSweeper_cases with ⟨heq, -⟩ | ⟨s, id, -, -, heq⟩ <;> rw [heq]
  · exact hnone
  · exact hnone.trans (abort _ id)

end Shows

/-! ## Steps and runs -/

/-- In every step but a change of the world, the log gains what can be seen of what is closed. -/
theorem shows_step (hc : c.Sound) (ha : Account c c.hands) (hworld : ∀ net, ev ≠ .world net) :
    c.Shows (c.step ev) := by
  have hstopped : c.Shows c.stopSweeper := .stopSweeper c
  cases ev with
  | call op =>
    by_cases hop : op = .shutdown
    · subst hop
      have hstride : Strides (fun _ => True) c c.stopSweeper :=
        strides_stopSweeper (fun _ _ => trivial) hc.attuned
      have hstart : c.stopSweeper.Shows _ := .start ((kept_account _).strides hstride ha)
        (performs_shutdown c.stopSweeper.calls.length c.stopSweeper)
      rw [length_calls_stopSweeper] at hstart
      exact hstopped.trans hstart
    · exact .start ha (performs_begin c.calls.length op hop c)
  | serviceClosed id => exact .goes ha (goes_serviceClosed hc.attuned id).resumes
  | built id b => exact .goes ha (goes_built hc id b)
  | wake id => exact .goes ha (goes_wake hc.attuned id).resumes
  | abort id => exact .abort c id
  | spawnSweeper interval =>
    rw [step, spawnSweeper]
    split
    · exact hstopped
    · exact hstopped
  | tick =>
    have hsweep : c.Shows (c.call .sweep).2 := .start ha (performs_begin _ .sweep (by simp) c)
    rw [step, tick]
    split
    · split
      · exact hsweep
      · exact .refl c
    · exact .refl c
  | clock t => exact .of_alike ⟨rfl, rfl⟩ rfl
  | sever s => exact .of_alike ⟨rfl, congrArg Accounts.tunnels (c.net.accounts_sever s)⟩ rfl
  | forward t e => exact .of_alike ⟨rfl, congrArg Accounts.tunnels (c.net.accounts_forward t e)⟩ rfl
  | world net => exact absurd rfl (hworld net)
  | reorder rows =>
    rw [step, reorder]
    split
    · exact .refl c
    · exact .refl c

theorem shows_run (ttl : Nat) (before after : List Event) (hworld : ∀ net, .world net ∉ after) :
    ((new ttl).run before).Shows ((new ttl).run (before ++ after)) := by
  induction after using List.reverseRecOn with
  | nil =>
    rw [List.append_nil]
    exact .refl _
  | append_singleton after ev ih =>
    have hafter := ih fun net hmem => hworld net (List.mem_append_left _ hmem)
    rw [← List.append_assoc, run_append _ (before ++ after)]
    refine hafter.trans (shows_step ((Sound.new ttl).run _) (account_run ttl _) ?_)
    rintro net rfl
    exact hworld net (by simp)

/-- The deeds of the journal account for the log. In every run that goes on without a change of the
world from outside, each deed that closes something closes one service or one hop, and all that the
log gains is what can be seen of closing these, in the order of the deeds. -/
theorem log_run (ttl : Nat) (before after : List Event) (hworld : ∀ net, .world net ∉ after) :
    ∃ ds xs, ((new ttl).run (before ++ after)).disposals = ((new ttl).run before).disposals ++ ds ∧
      ds.map ((new ttl).run (before ++ after)).disposal? = xs.map some ∧
      ((new ttl).run (before ++ after)).net.log.map (·.2) =
        (((new ttl).run before).net.showsAll xs).reverse ++
          ((new ttl).run before).net.log.map (·.2) := by
  obtain ⟨xs, hxs, hnet⟩ := shows_run ttl before after hworld
  have hold := (account_run ttl before).map_disposal?
  have hall := (account_run ttl (before ++ after)).map_disposal?
  have hjournal := (strides_run_any ((Sound.new ttl).run before) after).journal
  rw [← run_append] at hjournal
  generalize (new ttl).run before = c at *
  generalize (new ttl).run (before ++ after) = c' at *
  obtain ⟨ds, hds⟩ : c.disposals <+: c'.disposals := (hjournal.map _).filter _
  -- The deeds from before take as much room in one list as what they closed in the other.
  have hlength : c.disposals.length = c.disposed.length := by
    simpa using congrArg List.length hold
  rw [← hds, hxs, List.map_append, List.map_append] at hall
  refine ⟨ds, xs, hds.symm, (List.append_inj hall (by simpa using hlength)).2, ?_⟩
  rw [hnet.happened, Network.log_disposeAll]
  simp [Function.comp_def]

end Cache

end ConnectionBroker
