import ConnectionBroker.Proofs.Broker.Building
import ConnectionBroker.Proofs.Cache.Disposal

/-!
# The books of a cache

An entry holds its hop until the release of the entry ends, and its service is told to close when
that begins. With what the builds in progress hold, this is all there is : the books of a cache
balance (`Cache.Books`). A call that builds nothing keeps them whatever it does, move by move
(`Books.walk`); where a build ends, what it held goes over to the new entry (`Books.settle`).
-/

namespace ConnectionBroker

/-- The entry whose service is told to close. -/
def Deed.tells? : Deed → Option EntryId
  | .tellService e => some e
  | _ => none

theorem Deed.about_of_tells {d : Deed} {e : EntryId} (h : d.tells? = some e) :
    d.about = some e := by
  cases d <;> simp_all [tells?, about]

namespace Cache

variable {id : CallId} {op : Operation} {c c' : Cache} {h h' : Hand} {H : CallId → Hand}
  {e : EntryId} {builds : Multiset Stake}

/-- What an entry holds. -/
def holding? (c : Cache) (e : EntryId) : Option Holding :=
  c.resources[e]?.map fun r => .hop r.hop

/-- The service of an entry. -/
def service? (c : Cache) (e : EntryId) : Option ServiceId :=
  c.resources[e]?.map (·.service)

/-- What the entries hold. -/
def held (c : Cache) : Multiset Holding :=
  c.unreleased.filterMap c.holding?

/-- The services of the entries. -/
def services (c : Cache) : Multiset ServiceId :=
  c.resources.map (·.service)

/-- The services that were told to close, one for each time. -/
def told (c : Cache) : Multiset ServiceId :=
  (c.disposals.filterMap Deed.tells?).filterMap c.service?

/-- The books of the entries and of some builds balance. -/
def Books (c : Cache) (builds : Multiset Stake) : Prop :=
  Balanced c.net.accounts (builds.filterMap (·.holding) + c.held)
    (builds.filterMap (·.service) + c.services) c.told

section Congr

variable (hresources : c'.resources = c.resources)
include hresources

theorem holding?_congr : c'.holding? = c.holding? := by
  funext e
  rw [holding?, hresources, holding?]

theorem service?_congr : c'.service? = c.service? := by
  funext e
  rw [service?, hresources, service?]

theorem held_congr (hdisposals : ∀ e, .closeHop e ∈ c'.disposals ↔ .closeHop e ∈ c.disposals) :
    c'.held = c.held := by
  simp only [held, unreleased, hresources, hdisposals, holding?_congr hresources]

/-- Once its hop is closed, an entry holds nothing. -/
theorem held_of_closeHop (hdisposals : c'.disposals = c.disposals ++ [.closeHop e])
    (hlt : e < c.resources.length) (hfirst : .closeHop e ∉ c.disposals) :
    c.held = ofOption (c.holding? e) + c'.held := by
  rw [held, unreleased_of_closeHop hresources hdisposals hlt hfirst, filterMap_cons, held,
    holding?_congr hresources]

end Congr

/-! ## A new entry -/

section Append

variable {entry : Entry} (hfresh : c.deedsOf c.entries.length = [])
include hfresh

theorem held_append : ({ c with entries := c.entries ++ [entry] } : Cache).held =
    ofOption (some (.hop entry.resource.hop)) + c.held := by
  set c' : Cache := { c with entries := c.entries ++ [entry] }
  have hlength : c.resources.length = c.entries.length := List.length_map _
  have hcons : c'.unreleased = c.entries.length ::ₘ c.unreleased := by
    rw [unreleased, resources_append, List.length_append, hlength, List.length_singleton,
      Multiset.range_succ, Multiset.filter_cons_of_pos, unreleased, hlength]
    · rfl
    · exact fun hd => about_ne_of_mem_disposals hfresh hd rfl
  have hlast : c'.holding? c.entries.length = some (.hop entry.resource.hop) := by
    simp [holding?, resources_append, c', ← hlength]
  have hrest : c.unreleased.filterMap c'.holding? = c.unreleased.filterMap c.holding? := by
    refine filterMap_congr fun e he => ?_
    have hlt : e < c.entries.length := by
      rw [← hlength]
      exact Multiset.mem_range.1 (Multiset.mem_filter.1 he).1
    rw [holding?, getElem?_resources_append c entry (Nat.ne_of_lt hlt), holding?]
  rw [held, hcons, filterMap_cons, hlast, hrest, held]

theorem told_append : ({ c with entries := c.entries ++ [entry] } : Cache).told = c.told := by
  refine congrArg Multiset.ofList (List.filterMap_congr fun e he => ?_)
  obtain ⟨d, hd, hde⟩ := List.mem_filterMap.1 he
  have hne : e ≠ c.entries.length := by
    rintro rfl
    exact about_ne_of_mem_disposals hfresh hd (Deed.about_of_tells hde)
  rw [service?, getElem?_resources_append c entry hne, service?]

end Append

/-! ## The books -/

namespace Books

theorem new (ttl : Nat) : Books (new ttl) 0 := by
  refine ⟨⟨rfl, Multiset.nodup_zero, ?_, ?_⟩, Multiset.nodup_zero, ?_, rfl⟩
  · intro x hx
    exact absurd hx (Multiset.notMem_zero x)
  · intro t state s ht
    cases ht
  · intro s hs
    exact absurd hs (Multiset.notMem_zero s)

/-- The books depend on the accounts, the resources and the disposals. -/
theorem congr (hb : Books c builds) (haccounts : c'.net.accounts = c.net.accounts)
    (hresources : c'.resources = c.resources) (hdisposals : c'.disposals = c.disposals) :
    Books c' builds := by
  have hheld : c'.held = c.held := held_congr hresources fun e => by rw [hdisposals]
  rw [Books, haccounts, hheld, services, told, hresources, hdisposals, service?_congr hresources]
  exact hb

theorem cons_iff {k : Stake} : Books c (k ::ₘ builds) ↔
    Balanced c.net.accounts (ofOption k.holding + (builds.filterMap (·.holding) + c.held))
      (ofOption k.service + (builds.filterMap (·.service) + c.services)) c.told := by
  rw [Books, filterMap_cons, filterMap_cons, add_assoc, add_assoc]

/-- A build gives what it held for something else. -/
theorem trade {k k' : Stake} (hb : Books c (k ::ₘ builds))
    (ht : Trades c.net.accounts c'.net.accounts k k') (hresources : c'.resources = c.resources)
    (hdisposals : c'.disposals = c.disposals) : Books c' (k' ::ₘ builds) := by
  have hb' : Books { c with net := c'.net } (k' ::ₘ builds) := cons_iff.2 (ht _ _ _ (cons_iff.1 hb))
  exact hb'.congr rfl hresources hdisposals

theorem empty_iff : Books c (.empty ::ₘ builds) ↔ Books c builds := by
  rw [cons_iff, Stake.empty, ofOption_none, ofOption_none, zero_add, zero_add]
  rfl

/-- The service of an entry is told to close. -/
theorem tell (hb : Books c builds) (id : CallId) (e : EntryId) :
    Books (c.beginRelease id e) builds := by
  have hresources := resources_beginRelease c id e
  have hdisposals := disposals_beginRelease c id e
  have hheld : (c.beginRelease id e).held = c.held := held_congr hresources (by simp [hdisposals])
  have htold : (c.beginRelease id e).told = c.told + ofOption (c.service? e) := by
    rw [told, hdisposals, service?_congr hresources, List.filterMap_append, List.filterMap_append,
      ← Multiset.coe_add, told]
    rfl
  have haccounts : (c.beginRelease id e).net.accounts = { c.net.accounts with
      closedServices := (c.service? e).toList ++ c.net.accounts.closedServices } := by
    unfold beginRelease tellService service? resources
    rw [List.getElem?_map]
    cases c.entries[e]? with
    | none => rfl
    | some entry => exact c.net.accounts_closeService entry.resource.service
  rw [Books, haccounts, hheld, services, hresources, htold]
  refine ⟨hb.ledger.congr rfl rfl rfl, hb.apart, hb.known, ?_⟩
  rw [← Multiset.coe_add, hb.told_eq, add_comm]
  rfl

/-- The hop of an entry is closed, for the first time. -/
theorem finish (hb : Books c builds) (id : CallId) {e : EntryId} {entry : Entry}
    (he : c.entries[e]? = some entry) (hfirst : .closeHop e ∉ c.disposals) :
    Books (c.endRelease id e) builds := by
  have hnet : (c.endRelease id e).net = c.net.closeHop entry.resource.hop := by
    simp [endRelease, closeHop, note, he]
  have hresources := resources_endRelease c id e
  have hdisposals := disposals_endRelease c id e
  have htold : (c.endRelease id e).told = c.told := by
    have hnone : [Deed.closeHop e].filterMap Deed.tells? = [] := rfl
    rw [told, hdisposals, service?_congr hresources, List.filterMap_append, hnone, List.append_nil,
      told]
  have hheld : c.held = ofOption (some (.hop entry.resource.hop)) + (c.endRelease id e).held := by
    obtain ⟨hlt, -⟩ := List.getElem?_eq_some_iff.1 he
    have hlast : c.holding? e = some (.hop entry.resource.hop) := by simp [holding?, resources, he]
    rw [← hlast]
    exact held_of_closeHop hresources hdisposals (by simpa [resources] using hlt) hfirst
  rw [Books, hheld, add_left_comm] at hb
  have htrade := Construction.trades_closeHop c.net entry.resource.hop none _ _ _
    (by rwa [ofOption_none, zero_add])
  rw [Stake.empty, ofOption_none, zero_add, ofOption_none, zero_add, ← hnet, ← htold] at htrade
  rwa [Books, services, hresources]

/-- An entry takes over what a build has left. -/
theorem settle {entry : Entry} (hfresh : c.deedsOf c.entries.length = [])
    (hb : Books c (⟨some (.hop entry.resource.hop), some entry.resource.service⟩ ::ₘ builds)) :
    Books { c with entries := c.entries ++ [entry] } builds := by
  have hservices : ({ c with entries := c.entries ++ [entry] } : Cache).services =
      ofOption (some entry.resource.service) + c.services := by
    rw [services, resources_append, List.map_append, ← Multiset.coe_add, add_comm, services]
    rfl
  rw [Books, held_append hfresh, hservices, told_append hfresh,
    add_left_comm (builds.filterMap (·.holding)), add_left_comm (builds.filterMap (·.service))]
  exact cons_iff.1 hb

/-- Every move of a call that builds nothing keeps the books. -/
theorem move (hb : Books c builds) (ha : Account c (Function.update H id h))
    (hnone : h.building = none) (hm : Move id op (c, h) (c', h')) : Books c' builds := by
  rcases move_cases hm with hq | ⟨e, rfl⟩ | ⟨e, hr, rfl⟩ | ⟨key, slot, r, hbuild, -⟩
  · exact hb.congr hq.accounts hq.resources hq.disposals
  · exact hb.tell id e
  · have hrel : (Function.update H id h id).releasing = some e := by rw [Function.update_self, hr]
    obtain ⟨⟨entry, he⟩, hfirst⟩ := ha.not_closed_of_releasing hrel
    exact hb.finish id he hfirst
  · rw [hnone] at hbuild
    cases hbuild

/-- A call that builds nothing keeps the books for a whole stretch. -/
theorem walk {s s' : Cache × Hand} (hw : Walk id op s s') (hb : Books s.1 builds)
    (ha : Account s.1 (Function.update H id s.2)) : Books s'.1 builds := by
  induction hw with
  | refl => exact hb
  | tail hw hm ih =>
    exact ih.move ((kept_account fun _ => True).moves (Walk.moves hw) ha) hm.1 hm.2

end Books

end Cache

end ConnectionBroker
