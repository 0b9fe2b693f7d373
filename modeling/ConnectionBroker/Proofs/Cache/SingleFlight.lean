import ConnectionBroker.Proofs.Cache.Run

/-!
# Single flight

The guard of a construction is the slot, and a key has one slot in the map. So two factory calls
for one key can be in progress at once only where the slot of one of them left the map before it
had an outcome, and the one way out for such a slot is a request to close the key : `close` of the
key, `closeAll` or `shutdown` (`overlap_iff_withdrawn`). A failed or stale entry, a sweep, a
cancelled or panicked builder never let a second factory call in.
-/

namespace ConnectionBroker

namespace Cache

variable {c : Cache} {key : Fingerprint} {slot slot' : SlotId} {id id' : CallId}

/-- The factory call of a `get` for a slot of the key is in progress. -/
def Builds (c : Cache) (id : CallId) (key : Fingerprint) (slot : SlotId) : Prop :=
  ∃ left, c.activity? id = some (.getting key left (.building slot))

/-- A call whose operation closes the key took the slot out of the map. -/
def Withdrawn (c : Cache) (key : Fingerprint) (slot : SlotId) : Prop :=
  ∃ id call, (id, .withdraw key slot) ∈ c.journal ∧ c.calls[id]? = some call ∧
    call.operation.Closes key

theorem Builds.building (h : c.Builds id key slot) : (c.hands id).building = some (key, slot) := by
  obtain ⟨left, hleft⟩ := h
  obtain ⟨call, hcall, hact⟩ := activity?_eq_some_iff.1 hleft
  rw [hands_of_call hcall, hact]
  rfl

/-- A call builds in a slot of the map or in one that was withdrawn. -/
theorem Sound.current_or_withdrawn (hc : c.Sound) (h : c.Builds id key slot) :
    (key, slot) ∈ c.current ∨ c.Withdrawn key slot := by
  obtain ⟨hkey, -, hout⟩ := hc.guarded.building id key slot h.building
  refine (hc.guarded.loose key slot hkey hout).imp_right ?_
  rintro ⟨closer, hd⟩
  obtain ⟨call, hcall, hcloses, -⟩ := hc.accounted closer _ hd
  exact ⟨closer, call, hd, hcall, hcloses key slot rfl⟩

/-- Of two slots where calls build for one key, one was withdrawn. -/
theorem Sound.withdrawn_of_overlap (hc : c.Sound) (hne : slot ≠ slot') (h : c.Builds id key slot)
    (h' : c.Builds id' key slot') : c.Withdrawn key slot ∨ c.Withdrawn key slot' := by
  rcases hc.current_or_withdrawn h with hrow | hw
  · rcases hc.current_or_withdrawn h' with hrow' | hw'
    · exact absurd (Option.some.inj ((lookup_of_mem hc.guarded.keys hrow).symm.trans
        (lookup_of_mem hc.guarded.keys hrow'))) hne
    · exact .inr hw'
  · exact .inl hw

/-- Two factory calls for one key are in progress at once just when one goes on in a slot that a
request to close the key took out of the map, and one in another slot. -/
theorem overlap_iff_withdrawn (ttl : Nat) (events : List Event) (key : Fingerprint) :
    (∃ id id' slot slot', id ≠ id' ∧ ((new ttl).run events).Builds id key slot ∧
        ((new ttl).run events).Builds id' key slot') ↔
      ∃ slot slot', slot ≠ slot' ∧ ((new ttl).run events).Withdrawn key slot ∧
        (∃ id, ((new ttl).run events).Builds id key slot) ∧
          ∃ id', ((new ttl).run events).Builds id' key slot' := by
  have hc : ((new ttl).run events).Sound := (Sound.new ttl).run events
  constructor
  · rintro ⟨id, id', slot, slot', hne, h, h'⟩
    have hslots : slot ≠ slot' := by
      rintro rfl
      exact hne (hc.guarded.builder_unique h.building h'.building)
    rcases hc.withdrawn_of_overlap hslots h h' with hw | hw
    · exact ⟨slot, slot', hslots, hw, ⟨id, h⟩, id', h'⟩
    · exact ⟨slot', slot, hslots.symm, hw, ⟨id', h'⟩, id, h⟩
  · rintro ⟨slot, slot', hslots, -, ⟨id, h⟩, id', h'⟩
    refine ⟨id, id', slot, slot', ?_, h, h'⟩
    rintro rfl
    have heq := h.building.symm.trans h'.building
    exact hslots (Prod.mk.inj (Option.some.inj heq)).2

/-- A key that is closed while its entry is built is built again at once. -/
theorem overlap_after_close :
    ∃ id id' slot slot', id ≠ id' ∧
      ((new 1000).run [.call (.get ⟨"k"⟩), .call (.close ⟨"k"⟩), .call (.get ⟨"k"⟩)]).Builds
        id ⟨"k"⟩ slot ∧
      ((new 1000).run [.call (.get ⟨"k"⟩), .call (.close ⟨"k"⟩), .call (.get ⟨"k"⟩)]).Builds
        id' ⟨"k"⟩ slot' :=
  ⟨0, 2, 0, 1, by decide, ⟨3, by decide⟩, ⟨3, by decide⟩⟩

end Cache

end ConnectionBroker
