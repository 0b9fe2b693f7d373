import ConnectionBroker.Proofs.Broker.Books
import ConnectionBroker.Proofs.Cache.Ownership

/-!
# Caches that a run leaves

A broker runs its cache, and cancels nobody from outside (`Cache.Continues`). Of a cache that such
a run has left (`Cache.Reached`) all is known that is known of runs. Where nobody was cancelled at
all, an entry whose hop is not closed is in the map or in the hands of a call (`mem_heldEntries`) :
its tunnel does not close itself.
-/

namespace ConnectionBroker

namespace Cache

variable {c c' c'' : Cache} {id : CallId} {e : EntryId} {ev : Event}

/-- A run in which nobody cancels calls from outside leads from one cache to the other. -/
def Continues (c c' : Cache) : Prop :=
  ∃ events, (∀ id, .abort id ∉ events) ∧ c' = c.run events

namespace Continues

theorem refl (c : Cache) : c.Continues c :=
  ⟨[], by simp, rfl⟩

theorem trans (h : c.Continues c') (h' : c'.Continues c'') : c.Continues c'' := by
  obtain ⟨events, hext, rfl⟩ := h
  obtain ⟨events', hext', rfl⟩ := h'
  refine ⟨events ++ events', fun id hmem => ?_, (run_append _ events events').symm⟩
  exact (List.mem_append.1 hmem).elim (hext id) (hext' id)

theorem step (h : c.Continues c') (hev : ∀ id, ev ≠ .abort id) : c.Continues (c'.step ev) := by
  refine h.trans ⟨[ev], fun id hmem => ?_, rfl⟩
  exact hev id (List.mem_singleton.1 hmem).symm

theorem setWorld (h : c.Continues c') (net : Network) : c.Continues (c'.setWorld net) := by
  have hev : ∀ id, Event.world net ≠ .abort id := by simp
  exact h.step hev

theorem strides (h : c.Continues c') (hc : c.Sound) : Strides (fun _ => True) c c' := by
  obtain ⟨events, -, rfl⟩ := h
  exact strides_run_any hc events

end Continues

/-- The cache is what a run leaves in which nobody cancels calls from outside. -/
def Reached (c : Cache) : Prop :=
  ∃ ttl, (new ttl).Continues c

namespace Reached

theorem sound (hc : c.Reached) : c.Sound := by
  obtain ⟨ttl, events, -, rfl⟩ := hc
  exact (Sound.new ttl).run events

theorem account (hc : c.Reached) : Account c c.hands := by
  obtain ⟨ttl, events, -, rfl⟩ := hc
  exact account_run ttl events

theorem custody (hc : c.Reached) : Custody c c.hands := by
  obtain ⟨ttl, events, hext, rfl⟩ := hc
  exact custody_run ttl (spared_of_no_abort hext)

theorem step (hc : c.Reached) (hev : ∀ id, ev ≠ .abort id) : (c.step ev).Reached :=
  hc.imp fun _ h => h.step hev

theorem setWorld (hc : c.Reached) (net : Network) : (c.setWorld net).Reached :=
  hc.imp fun _ h => h.setWorld net

theorem continues (hc : c.Reached) (h : c.Continues c') : c'.Reached :=
  hc.imp fun _ hn => hn.trans h

end Reached

/-- A call that has a build in hand waits for it. -/
theorem activity_of_building (h : (c.hands id).building.isSome) :
    ∃ key left slot, c.activity? id = some (.getting key left (.building slot)) := by
  unfold hands at h
  cases ha : c.activity? id with
  | none => simp [ha] at h
  | some a =>
    cases a with
    | getting key left phase =>
      cases phase with
      | building slot => exact ⟨key, left, slot, rfl⟩
      | _ => simp [ha, Activity.hand, Activity.building] at h
    | _ => simp [ha, Activity.hand, Activity.building] at h

/-- What a call has in hand, some call has that has begun and not ended. -/
theorem exists_call_of_hands {P : Hand → Prop} (hnone : ¬P {}) (h : P (c.hands id)) :
    ∃ call ∈ c.calls, P call.activity.hand := by
  cases hcall : c.calls[id]? with
  | none =>
    have hempty : c.hands id = {} := by simp [hands, activity?, hcall]
    exact absurd (hempty ▸ h) hnone
  | some call => exact ⟨call, List.mem_of_getElem? hcall, hands_of_call hcall ▸ h⟩

theorem mem_heldEntries_of_call {call : Call} (hcall : call ∈ c.calls)
    (he : e ∈ c.entriesOf call.activity) : e ∈ c.heldEntries :=
  List.mem_append_right _ (List.mem_flatMap.2 ⟨call, hcall, he⟩)

/-- An open entry is in the map or in a slot that a call has drained. -/
theorem Custody.mem_heldEntries (hv : Custody c c.hands) (hopen : c.isOpen e = true) :
    e ∈ c.heldEntries := by
  obtain ⟨slot, hready, ⟨key, hrow⟩ | ⟨id, hs⟩⟩ := hv.held e hopen
  · exact List.mem_append_left _ (List.mem_filterMap.2 ⟨(key, slot), hrow, hready⟩)
  · obtain ⟨call, hcall, hs⟩ := exists_call_of_hands (P := fun h => slot ∈ h.drained)
      List.not_mem_nil hs
    exact mem_heldEntries_of_call hcall
      (List.mem_append_right _ (List.mem_filterMap.2 ⟨slot, hs, hready⟩))

/-- A claimed entry whose hop is not closed is in the hands of the call that has claimed it. -/
theorem Account.mem_heldEntries (ha : Account c c.hands) (hclosed : c.isClosed e = true)
    (hhop : .closeHop e ∉ c.disposals) (hkept : ∀ id, (id, .abandon e) ∉ c.deedsOf e) :
    e ∈ c.heldEntries := by
  rcases ha.stage e ((ha.closed_iff e).1 hclosed) with ⟨id, hc⟩ | ⟨id, hr⟩ | ⟨id, hd⟩ | ⟨id, hd⟩
  · obtain ⟨call, hcall, hc⟩ := exists_call_of_hands (P := fun h => e ∈ h.claimed)
      List.not_mem_nil hc
    exact mem_heldEntries_of_call hcall
      (List.mem_append_left _ (List.mem_append_right _ hc))
  · obtain ⟨call, hcall, hr⟩ := exists_call_of_hands (P := fun h => h.releasing = some e)
      nofun hr
    refine mem_heldEntries_of_call hcall (List.mem_append_left _ (List.mem_append_left _ ?_))
    exact List.mem_append_left _ (Option.mem_toList.2 hr)
  · have hmem : (id, Deed.closeHop e) ∈ c.deedsOf e := by simp [hd, released]
    exact absurd ((mem_disposals_iff_deedsOf rfl rfl).2 ⟨id, hmem⟩) hhop
  · exact absurd hd (hkept id)

/-- An entry whose hop is not closed is in the map or in the hands of a call. -/
theorem mem_heldEntries (hc : c.Reached) (hquiet : ∀ id, c.result? id ≠ some .aborted)
    (he : e ∈ c.unreleased) : e ∈ c.heldEntries := by
  obtain ⟨hlt, hhop⟩ := Multiset.mem_filter.1 he
  rw [Multiset.mem_range, resources, List.length_map] at hlt
  by_cases hopen : c.isOpen e = true
  · exact hc.custody.mem_heldEntries hopen
  · have hkey : c.entryKey? e = some c.entries[e].key := by simp [entryKey?, hlt]
    have hclosed : c.isClosed e = true := isClosed_of_not_isOpen hkey hopen
    exact hc.account.mem_heldEntries hclosed hhop fun id => hc.sound.not_abandoned hquiet

end Cache

end ConnectionBroker
