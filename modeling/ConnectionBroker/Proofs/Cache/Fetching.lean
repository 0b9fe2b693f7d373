import ConnectionBroker.Proofs.Cache.Binding
import ConnectionBroker.Proofs.Cache.Concluding

/-!
# How a service is fetched

A `get` that has swept finds nothing stale. It uses the entry of its key (`take_bound`), or it
builds in an empty slot, one that a factory left that panicked or a new one (`Building`). What comes
of the factory is kept, unless it is an error, a panic, or stale at once (`concludes_built`). So the
call concludes as the shelf says (`concludes_fetch`).
-/

namespace ConnectionBroker

namespace Cache

variable {c c' d : Cache} {n : Network} {ttl left : Nat} {ahead loose loose' : List Hop}
  {s s' : Shelf} {f : Factory} {id : CallId} {e : EntryId} {r : Resource}
  {key : Fingerprint} {slot : SlotId} {k : Shelved}

/-- A `get` that has swept uses what is kept under its key. -/
theorem take_bound {entry : Entry} (hn : n.Tireless) (hm : Mirrors n ttl loose c s)
    (hb : c.Bound key slot e entry)
    (hfresh : Shelved.stale ttl n.lives s.now ⟨key, entry.resource, entry.lastUse⟩ = false)
    (id : CallId) (left : Nat) :
    take id key (left + 1) c = (.ended (.service entry.resource.service),
      c.setEntry e { entry with lastUse := c.net.now }) := by
  have haccess := access_of_bound hn hb (hm.spared_bound hb) id
  rw [hm.ttl, hm.now, hfresh, if_neg Bool.false_ne_true, ← hm.now] at haccess
  have hout : c.outcome? slot = some (.ready e) := ready?_eq_some_iff.1 (ready?_of_ready hb.ready)
  have he := entries_setEntry_self hb.there { entry with lastUse := c.net.now }
  simp only [take, slotFor_of_some hb.lookup, hout, use, haccess, he]

/-! ## Building -/

theorem beside_updateSlot {x : Slot} (h : c.slots[slot]? = some x) (hkey : x.key = key)
    (g : Slot → Slot) : Beside (· = key) c (c.updateSlot slot g) := by
  refine ⟨rfl, fun i y hy hne => ?_, fun _ _ h _ => h⟩
  have hi : slot ≠ i := by
    rintro rfl
    rw [h] at hy
    exact hne (Option.some.inj hy ▸ hkey)
  rw [slots_updateSlot, if_neg hi, hy]

/-- The state of a call that builds in a slot that was empty. -/
structure Building (n : Network) (ttl : Nat) (loose : List Hop) (c : Cache) (s : Shelf)
    (key : Fingerprint) (slot : SlotId) (id : CallId) (left : Nat) : Prop where
  activity : c.activity? id = some (.getting key left (.building slot))
  lookup : c.current.lookup key = some slot
  slot : c.slots[slot]? = some ⟨key, some id, [], none⟩
  unbound : s.find? key = none
  /-- But for the builder, the cache looks like the shelf. -/
  mirrors : ∃ d, Beside (· = key) d c ∧ d.current = c.current ∧ d.net = c.net ∧
    Mirrors n ttl loose d s

namespace Building

theorem lt_calls (hb : Building n ttl loose c s key slot id left) : id < c.calls.length :=
  lt_of_activity? hb.activity

theorem wait (hb : Building n ttl loose c s key slot id left) (t : Nat) :
    Building n ttl loose { c with net := c.net.setClock t } (s.wait t) key slot id left := by
  obtain ⟨d, hbeside, hcurrent, hnet, hm⟩ := hb.mirrors
  exact ⟨hb.activity, hb.lookup, hb.slot, hb.unbound, { d with net := d.net.setClock t },
    ⟨hbeside.ttl, hbeside.slots, hbeside.entries⟩, hcurrent, congrArg (·.setClock t) hnet,
    hm.wait t⟩

/-- The row of the key, with what the build has made of it. -/
theorem replace (hb : Building n ttl loose c s key slot id left) (hc : Beside (· = key) c c')
    (own : List (Fingerprint × SlotId)) (hown : (own.map Prod.fst).Nodup)
    (hstands : ∀ row ∈ own, row.1 = key ∧ c'.Stands row)
    (hcurrent : c'.current.Perm (own ++ c.current.filter (·.1 != key)))
    (hnet : c'.net = c.net) (hnow : s'.now = s.now)
    (hitems : s'.items.Perm (own.filterMap c'.kept? ++ s.items))
    (hfair : n.Fair c.net (s'.items.map (·.resource.hop) ++ loose')) :
    Mirrors n ttl loose' c' s' := by
  obtain ⟨d, hbeside, hd, hnet', hm⟩ := hb.mirrors
  refine hm.replace (hbeside.trans hc) own hown hstands (hd ▸ hcurrent) ?_ ?_ (hnet ▸ hfair)
  · rw [hnet, ← hnet', hm.now, hnow]
  · rw [keep_of_unbound hb.unbound]
    exact hitems

theorem mem (hb : Building n ttl loose c s key slot id left) : (key, slot) ∈ c.current :=
  mem_of_isCurrent (by simp [isCurrent, hb.lookup])

theorem keys (hb : Building n ttl loose c s key slot id left) :
    (c.current.map Prod.fst).Nodup := by
  obtain ⟨d, -, hcurrent, -, hm⟩ := hb.mirrors
  exact hcurrent ▸ hm.keys

theorem fair (hb : Building n ttl loose c s key slot id left) :
    n.Fair c.net (s.items.map (·.resource.hop) ++ loose) := by
  obtain ⟨d, -, -, hnet, hm⟩ := hb.mirrors
  exact hnet ▸ hm.fair

theorem now_eq (hb : Building n ttl loose c s key slot id left) : c.net.now = s.now := by
  obtain ⟨d, -, -, hnet, hm⟩ := hb.mirrors
  rw [← hnet, hm.now]

theorem ttl_eq (hb : Building n ttl loose c s key slot id left) : c.ttl = ttl := by
  obtain ⟨d, hbeside, -, -, hm⟩ := hb.mirrors
  rw [hbeside.ttl, hm.ttl]

/-- A factory that panics leaves an empty slot. -/
theorem panicked (hb : Building n ttl ahead c s key slot id left) :
    Mirrors n ttl ahead (c.passOn slot) s := by
  have hslot : (c.passOn slot).slots[slot]? = some ⟨key, none, [], none⟩ := by
    rw [passOn, slots_updateSlot, if_pos rfl, hb.slot]
    rfl
  have hkept : (c.passOn slot).kept? (key, slot) = none := by
    rw [kept?, ready?_of_empty hslot, Option.bind_none]
  refine hb.replace (beside_updateSlot hb.slot rfl _) [(key, slot)] (List.nodup_singleton _) ?_
    (perm_cons_others Prod.fst hb.keys hb.mem) rfl rfl ?_ hb.fair
  · intro row hrow
    obtain rfl := List.mem_singleton.1 hrow
    exact ⟨rfl, .inl hslot⟩
  · rw [List.filterMap_cons_none hkept]
    exact .refl _

/-- A factory that fails leaves nothing. -/
theorem failed (hb : Building n ttl ahead c s key slot id left) (err : BrokerError) :
    Mirrors n ttl ahead ((c.conclude slot (.failed err)).forget id key slot) s := by
  have hcur : (c.conclude slot (.failed err)).isCurrent key slot = true := by
    simp [isCurrent, conclude, updateSlot, hb.lookup]
  obtain ⟨pre, post, -, hforget⟩ := forget_of_isCurrent id hcur
  have hbeside : Beside (· = key) c ((c.conclude slot (.failed err)).forget id key slot) := by
    rw [hforget]
    have h := beside_updateSlot hb.slot rfl fun x =>
      { x with builder := none, waiting := [], outcome := some (.failed err) }
    exact ⟨h.ttl, h.slots, h.entries⟩
  refine hb.replace hbeside [] List.nodup_nil (by simp) ?_ (by rw [hforget]; rfl) rfl (.refl _)
    hb.fair
  exact current_forget hb.keys hcur

/-- The cache with the entry that the factory's resource becomes. -/
def withEntry (c : Cache) (key : Fingerprint) (slot : SlotId) (r : Resource) : Cache :=
  { c with entries := c.entries ++ [Entry.fresh key r c.net.now c.ttl] }.conclude slot
    (.ready c.entries.length)

/-- The entry stands in the row of its key. -/
theorem bound (hb : Building n ttl ahead c s key slot id left) (r : Resource) :
    (withEntry c key slot r).Bound key slot c.entries.length
      (.fresh key r c.net.now c.ttl) := by
  refine ⟨hb.lookup, ?_, List.getElem?_concat_length, rfl, rfl, rfl⟩
  rw [withEntry, conclude, slots_updateSlot, if_pos rfl]
  exact congrArg (Option.map _) hb.slot

/-- A resource is kept, for the time being. -/
theorem kept (hb : Building n ttl (r.hop :: ahead) c s key slot id left) :
    Mirrors n ttl ahead (withEntry c key slot r) (s.put ⟨key, r, s.now⟩) := by
  have hbound := hb.bound r
  have hbeside : Beside (· = key) c (withEntry c key slot r) := by
    obtain ⟨d, hd⟩ : ∃ d : Cache, d = { c with
      entries := c.entries ++ [Entry.fresh key r c.net.now c.ttl] } := ⟨_, rfl⟩
    have hslot : d.slots[slot]? = some ⟨key, some id, [], none⟩ := by rw [hd, hb.slot]
    have h : Beside (· = key) d (withEntry c key slot r) := by
      rw [withEntry, ← hd]
      exact beside_updateSlot hslot rfl _
    rw [hd] at h
    refine ⟨h.ttl, h.slots, fun i x hx hne => h.entries i x ?_ hne⟩
    exact (List.getElem?_append_left (List.getElem?_eq_some_iff.1 hx).1).trans hx
  refine hb.replace hbeside [(key, slot)] (List.nodup_singleton _) ?_
    (perm_cons_others Prod.fst hb.keys hb.mem) rfl rfl ?_ ?_
  · intro row hrow
    obtain rfl := List.mem_singleton.1 hrow
    exact ⟨rfl, .inr ⟨_, _, hbound.ready, hbound.there, rfl, rfl, rfl⟩⟩
  · rw [List.filterMap_cons_some hbound.kept?, put_of_unbound hb.unbound, ← hb.now_eq]
    exact .refl _
  · rw [put_of_unbound hb.unbound]
    exact hb.fair.perm List.perm_middle

theorem built_panicked (hb : Building n ttl loose c s key slot id left) :
    c.built id .panicked = resume id (.ended .panicked, c.passOn slot) := by
  simp [built, hb.activity, resume]

theorem built_failed (hb : Building n ttl loose c s key slot id left) (err : BrokerError) :
    c.built id (.failed err) =
      resume id (.ended (.failed err), (c.conclude slot (.failed err)).forget id key slot) := by
  simp [built, hb.activity, resume, observe]

theorem built_resource (hb : Building n ttl loose c s key slot id left) (r : Resource) :
    c.built id (.resource r) = resume id ((withEntry c key slot r).use id key slot c.entries.length
      true left (staleRound id key left)) := by
  have hcur : (withEntry c key slot r).isCurrent key slot = true :=
    beq_iff_eq.2 (hb.bound r).lookup
  have hobserve : c.built id (.resource r) = resume id ((withEntry c key slot r).observe id key slot
      true left (.ready c.entries.length)) := by
    rw [built, hb.activity]
    rfl
  rw [hobserve, observe, if_pos hcur]

/-- A resource is claimed at once if it is stale at once. -/
theorem access_built (hn : n.Tireless) (hb : Building n ttl (r.hop :: ahead) c s key slot id left)
    {entry : Entry} (hentry : entry = .fresh key r c.net.now c.ttl) :
    (withEntry c key slot r).access id c.entries.length =
      if Shelved.stale ttl n.lives s.now ⟨key, r, s.now⟩ then
        (.expired, ((withEntry c key slot r).setEntry c.entries.length
          { entry with closed := true }).note id (.claim c.entries.length))
      else (.touched, withEntry c key slot r) := by
  have hbound := hentry ▸ hb.bound r
  have hmet := hb.kept.spared_bound hbound
  have hkept : (⟨key, entry.resource, entry.lastUse⟩ : Shelved) = ⟨key, r, s.now⟩ := by
    rw [hentry, ← hb.now_eq]
    rfl
  have hself : (withEntry c key slot r).setEntry c.entries.length
      { entry with lastUse := (withEntry c key slot r).net.now } = withEntry c key slot r :=
    setEntry_self (hentry ▸ hbound.there)
  rw [access_of_bound hn hbound hmet id, hkept, hself,
    show (withEntry c key slot r).ttl = ttl from hb.ttl_eq,
    show (withEntry c key slot r).net.now = s.now from hb.now_eq]

/-- A resource that is not stale at once is what the call ends with. -/
theorem use_fresh (hn : n.Tireless) (hb : Building n ttl (r.hop :: ahead) c s key slot id left)
    (hfresh : Shelved.stale ttl n.lives s.now ⟨key, r, s.now⟩ = false) :
    (withEntry c key slot r).use id key slot c.entries.length true left (staleRound id key left) =
      (.ended (.service r.service), withEntry c key slot r) := by
  simp only [use, hb.access_built hn rfl, hfresh, Bool.false_eq_true, if_false,
    (hb.bound r).there]
  rfl

/-- A resource that is stale at once is released. -/
theorem use_stale (hn : n.Tireless) (hb : Building n ttl (r.hop :: ahead) c s key slot id left)
    (hstale : Shelved.stale ttl n.lives s.now ⟨key, r, s.now⟩ = true) : ∃ d : Cache,
    (withEntry c key slot r).use id key slot c.entries.length true left (staleRound id key left) =
      (.getting key left (.evicting c.entries.length true), d.beginRelease id c.entries.length) ∧
      d.Holds c.entries.length r ∧ d.net = c.net ∧ d.calls = c.calls ∧
      Mirrors n ttl (r.hop :: ahead) d s := by
  obtain ⟨entry, hentry⟩ : ∃ entry, entry = Entry.fresh key r c.net.now c.ttl := ⟨_, rfl⟩
  have hresource : entry.resource = r := hentry ▸ rfl
  have haccess := hb.access_built hn hentry
  rw [hstale, if_pos rfl] at haccess
  obtain ⟨d, hd⟩ : ∃ d, d = (((withEntry c key slot r).setEntry c.entries.length
    { entry with closed := true }).note id (.claim c.entries.length)).forget id key slot := ⟨_, rfl⟩
  obtain ⟨hheld, hnet, hcalls, hm⟩ := hb.kept.evicted (hentry ▸ hb.bound r) hd
  rw [hresource] at hheld hm
  refine ⟨d, by rw [use, haccess, hd], hheld, hnet, hcalls, hm.of_items rfl (.of_eq ?_)⟩
  have hput : (s.put ⟨key, r, s.now⟩).items = ⟨key, r, s.now⟩ :: s.items :=
    put_of_unbound hb.unbound
  calc s.items = (s.keep (·.key != key)).items := (keep_of_unbound hb.unbound).symm
    _ = (⟨key, r, s.now⟩ :: s.items).filter (·.key != key) := by
      rw [List.filter_cons_of_neg (by simp)]
      rfl
    _ = ((s.put ⟨key, r, s.now⟩).keep (·.key != key)).items := by rw [← hput]; rfl

end Building

/-- What comes of the factory is what the shelf says. -/
theorem concludes_built (hn : n.Tireless)
    (hb : Building n ttl (f.hop?.toList ++ ahead) c s key slot id left) :
    Concludes n ttl ahead f id 1 (c.built id f.outcome)
      (s.settle ttl n.lives key f.outcome).1.result []
      ((((s.settle ttl n.lives key f.outcome).1.refused.toList.flatMap n.closes).map
        (s.now, ·)).reverse ++ c.net.log) (s.settle ttl n.lives key f.outcome).2 := by
  obtain ⟨delay, outcome⟩ := f
  cases outcome with
  | failed err =>
    have hbuilding : Building n ttl ahead c s key slot id left := hb
    have hc : At id (.ended (.failed err), (c.conclude slot (.failed err)).forget id key slot)
        (c.built id (.failed err)) := by
      rw [hb.built_failed]
      refine at_resume ?_
      rw [calls_forget]
      exact hb.lt_calls
    have hend := @concludes_ended _ _ n ttl ahead s ⟨delay, .failed err⟩ id _ hc
      (hbuilding.failed err)
    rw [net_forget] at hend
    exact hend.mono (Nat.zero_le 1)
  | panicked =>
    have hbuilding : Building n ttl ahead c s key slot id left := hb
    have hc : At id (.ended .panicked, c.passOn slot) (c.built id .panicked) := by
      rw [hb.built_panicked]
      exact at_resume hb.lt_calls
    exact (concludes_ended hc hbuilding.panicked).mono (Nat.zero_le 1)
  | resource r =>
    have hbuilding : Building n ttl (r.hop :: ahead) c s key slot id left := hb
    rw [hb.built_resource]
    cases hstale : Shelved.stale ttl n.lives s.now ⟨key, r, s.now⟩ with
    | false =>
      rw [hbuilding.use_fresh hn hstale, Shelf.settle, hstale, if_neg Bool.false_ne_true]
      have hc : At id (.ended (.service r.service), Building.withEntry c key slot r)
          (resume id _) :=
        at_resume hb.lt_calls
      exact (concludes_ended hc hbuilding.kept).mono (Nat.zero_le 1)
    | true =>
      obtain ⟨d, huse, hheld, hnet, hcalls, hm⟩ := hbuilding.use_stale hn hstale
      rw [huse, Shelf.settle, hstale, if_pos rfl]
      have hc : At id (.getting key left (.evicting c.entries.length true),
          d.beginRelease id c.entries.length) (resume id (.getting key left
            (.evicting c.entries.length true), d.beginRelease id c.entries.length)) := by
        refine at_resume ?_
        rw [beginRelease_of_holds hheld]
        exact hcalls ▸ hb.lt_calls
      have hend := concludes_told (f := ⟨delay, .resource r⟩) hm hheld hc rfl fun _ => rfl
      rw [hnet] at hend
      simpa using hend

/-- A `get` that finds nothing stale fetches the service as the shelf does. -/
theorem concludes_fetch (hn : n.Tireless) (hm : Mirrors n ttl (f.hop?.toList ++ ahead) d s)
    (hfresh : ∀ k ∈ s.items, Shelved.stale ttl n.lives s.now k = false)
    (hc : At id (take id key (left + 1) d) c) :
    Concludes n ttl ahead f id 2 c (s.fetch ttl n.lives key f).1.result
      (s.fetch ttl n.lives key f).1.builds
      ((((s.fetch ttl n.lives key f).1.refused.toList.flatMap n.closes).map
        ((s.fetch ttl n.lives key f).2.now, ·)).reverse ++ d.net.log)
      (s.fetch ttl n.lives key f).2 := by
  cases hfind : s.find? key with
  | some k =>
    obtain ⟨slot, e, entry, hb, rfl⟩ := hm.bound hfind
    rw [take_bound hn hm hb (hfresh _ (Shelf.find?_eq_some_iff.1 hfind).1)] at hc
    have hm' : Mirrors n ttl ahead (d.setEntry e { entry with lastUse := d.net.now })
        (s.put ⟨key, entry.resource, s.now⟩) := by
      refine (hm.touched hb).congr ?_ rfl rfl rfl rfl ?_
      · exact hm.now
      · exact (hm.touched hb).fair.sublist
          (List.Sublist.append_left (List.sublist_append_right _ _) _)
    rw [Shelf.fetch, hfind]
    exact (concludes_ended hc hm').mono (Nat.zero_le 2)
  | none =>
    obtain ⟨slot, d₁, hslotFor, hlookup, hslot, hnet, hm₁⟩ := hm.slotFor hfind
    have htake : take id key (left + 1) d = (.getting key (left + 1) (.building slot),
        (d₁.setBuilder slot id).note id (.build slot)) := by
      simp [take, hslotFor, outcome?, builder?, hslot]
    rw [htake] at hc
    have hbuilding : Building n ttl (f.hop?.toList ++ ahead) c s key slot id (left + 1) := by
      have hbeside := beside_updateSlot hslot rfl fun x => { x with builder := some id }
      refine ⟨hc.activity, hc.current ▸ hlookup, ?_, hfind, d₁, ?_, hc.current.symm, hc.net.symm,
        hm₁⟩
      · rw [hc.slots]
        show (d₁.setBuilder slot id).slots[slot]? = _
        rw [setBuilder, slots_updateSlot, if_pos rfl, hslot]
        rfl
      · exact ⟨hc.ttl.trans hbeside.ttl, fun i x hx hne => hc.slots ▸ hbeside.slots i x hx hne,
          fun i x hx hne => hc.entries ▸ hbeside.entries i x hx hne⟩
    have hnow : c.net.now = s.now := hbuilding.now_eq
    obtain ⟨c', hsettles, hresult, hlog, hmirrors⟩ :=
      concludes_built hn (hbuilding.wait (c.net.now + f.delay))
    have hlog' : c.net.log = d.net.log := by
      rw [hc.net]
      exact congrArg Network.log hnet
    rw [Shelf.fetch, hfind, Shelf.now_settle, Shelf.builds_settle, ← hnow]
    refine ⟨c', .build hc.activity hsettles, hresult, hlog.trans ?_, hmirrors⟩
    rw [← hlog']
    rfl

end Cache

end ConnectionBroker
