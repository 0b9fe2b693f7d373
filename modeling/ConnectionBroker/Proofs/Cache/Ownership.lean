import ConnectionBroker.Proofs.Cache.Custody
import ConnectionBroker.Proofs.Cache.Teardown

/-!
# Who owns an entry

An entry belongs to the map while it is open, or to a `closeAll` or a shutdown that drained it, and
from its claim on to the call that claimed it, until that has released it (`ownership`). A key has
one entry in the map, so two open entries for one key are only there while one of them waits in
the drained slots of such a call (`open_twice_iff_drained`) : draining empties the map at once but
claims the entries one by one, each after the release of the one before.

The release of an entry is told by the deeds in the journal. That these are what is done to services
and hops in the world around the cache is `log_run`.
-/

namespace ConnectionBroker

namespace Cache

variable {c : Cache} {key : Fingerprint} {slot : SlotId} {e : EntryId}

/-- An open entry was built for the key. -/
def OpenFor (c : Cache) (key : Fingerprint) (e : EntryId) : Prop :=
  c.entryKey? e = some key ∧ c.isOpen e = true

/-- The entry is in a slot that a `closeAll` or a shutdown in progress has drained and not looked
at yet. -/
def Drained (c : Cache) (e : EntryId) : Prop :=
  ∃ (id : CallId) (call : Call) (slot : SlotId), c.calls[id]? = some call ∧
    (call.operation = .closeAll ∨ call.operation = .shutdown) ∧
      slot ∈ call.activity.drained ∧ c.ready? slot = some e

theorem Custody.openFor_of_row (hg : Guarded c c.hands) (hv : Custody c c.hands)
    (hrow : (key, slot) ∈ c.current) (hr : c.ready? slot = some e) : c.OpenFor key e := by
  refine ⟨?_, hv.cached_open key slot e hrow hr⟩
  obtain ⟨k, hk, he⟩ := hv.ready_key slot e hr
  rw [he, ← hk]
  exact hg.row_key key slot hrow

/-- An open entry is found under its key, or it is drained. -/
theorem Custody.find_or_drained (hc : c.Sound) (hv : Custody c c.hands) (h : c.OpenFor key e) :
    c.find? key = some e ∨ c.Drained e := by
  obtain ⟨slot, hr, ⟨k, hrow⟩ | ⟨id, hs⟩⟩ := hv.held e h.2
  · have hk := (hv.openFor_of_row hc.guarded hrow hr).1
    obtain rfl : k = key := Option.some.inj (hk.symm.trans h.1)
    exact .inl (by simp [find?, lookup_of_mem hc.guarded.keys hrow, hr, h.2])
  · refine .inr ?_
    unfold hands at hs
    cases ha : c.activity? id with
    | none =>
      rw [ha] at hs
      cases hs
    | some a =>
      rw [ha] at hs
      obtain ⟨call, hcall, rfl⟩ := activity?_eq_some_iff.1 ha
      have hfit := hc.attuned.fits call (List.mem_of_getElem? hcall)
      exact ⟨id, call, slot, hcall, hfit.drained (List.ne_nil_of_mem hs), hs, hr⟩

theorem openFor_of_find (hc : c.Sound) (hv : Custody c c.hands) (h : c.find? key = some e) :
    c.OpenFor key e := by
  unfold find? at h
  split at h
  · rename_i slot hl
    obtain ⟨hr, -⟩ := Option.filter_eq_some_iff.1 h
    exact hv.openFor_of_row hc.guarded (mem_of_isCurrent (beq_iff_eq.2 hl)) hr
  · cases h

/-- After a run in which nobody cancels calls from outside, a key has two open entries just when
an open entry of the key is drained by a `closeAll` or a shutdown that is still in progress, and
another one is found under the key or drained as well. -/
theorem open_twice_iff_drained (ttl : Nat) (events : List Event) (key : Fingerprint)
    (hext : ∀ id, .abort id ∉ events) :
    (∃ e e', e ≠ e' ∧ ((new ttl).run events).OpenFor key e ∧
        ((new ttl).run events).OpenFor key e') ↔
      ∃ e e', e ≠ e' ∧ ((new ttl).run events).OpenFor key e ∧ ((new ttl).run events).Drained e ∧
        (((new ttl).run events).find? key = some e' ∨
          ((new ttl).run events).OpenFor key e' ∧ ((new ttl).run events).Drained e') := by
  have hc : ((new ttl).run events).Sound := (Sound.new ttl).run events
  have hv := custody_run ttl (spared_of_no_abort hext)
  constructor
  · rintro ⟨e, e', hne, h, h'⟩
    rcases hv.find_or_drained hc h with hf | hd
    · rcases hv.find_or_drained hc h' with hf' | hd'
      · exact absurd (Option.some.inj (hf.symm.trans hf')) hne
      · exact ⟨e', e, hne.symm, h', hd', .inl hf⟩
    · exact ⟨e, e', hne, h, hd, (hv.find_or_drained hc h').imp_right fun hd' => ⟨h', hd'⟩⟩
  · rintro ⟨e, e', hne, h, -, hf | ⟨h', -⟩⟩
    · exact ⟨e, e', hne, h, openFor_of_find hc hv hf⟩
    · exact ⟨e, e', hne, h, h'⟩

/-- A `closeAll` that waits for the service of one entry while another key is built again. -/
def slowDrain : List Event :=
  [.call (.get ⟨"a"⟩), .built 0 (.resource ⟨0, .direct⟩), .call (.get ⟨"b"⟩),
    .built 1 (.resource ⟨1, .direct⟩), .call .closeAll, .call (.get ⟨"b"⟩),
    .built 3 (.resource ⟨2, .direct⟩)]

/-- The entry that the `closeAll` has drained is still open, and so is the one that was built
after. -/
theorem drained_during_closeAll :
    ∃ e e', e ≠ e' ∧ ((new 1000).run slowDrain).OpenFor ⟨"b"⟩ e ∧
      ((new 1000).run slowDrain).Drained e ∧
        (((new 1000).run slowDrain).find? ⟨"b"⟩ = some e' ∨
          ((new 1000).run slowDrain).OpenFor ⟨"b"⟩ e' ∧ ((new 1000).run slowDrain).Drained e') :=
  (open_twice_iff_drained 1000 slowDrain ⟨"b"⟩ (by simp [slowDrain])).1
    ⟨1, 2, by decide, ⟨by decide, by decide⟩, by decide, by decide⟩

/-- A key that is built again during a `closeAll` has two open entries. -/
theorem open_twice_during_closeAll :
    ∃ e e', e ≠ e' ∧ ((new 1000).run slowDrain).OpenFor ⟨"b"⟩ e ∧
      ((new 1000).run slowDrain).OpenFor ⟨"b"⟩ e' :=
  ⟨1, 2, by decide, ⟨by decide, by decide⟩, by decide, by decide⟩

/-! ## Ownership -/

/-- Who owns what : what the map holds, where open entries are, who releases an entry and how far,
and how things stand when every call has ended. -/
structure Owned (c : Cache) : Prop where
  /-- An entry of the map is open and under the key that it was built for. -/
  cached : ∀ key slot e, (key, slot) ∈ c.current → c.ready? slot = some e → c.OpenFor key e
  /-- An open entry is the one of its key in the map, or it is drained. -/
  open_held : ∀ key e, c.OpenFor key e → c.find? key = some e ∨ c.Drained e
  /-- An entry is closed just when some call has claimed it. -/
  closed_iff : ∀ e, c.isClosed e = true ↔ ∃ id, (id, .claim e) ∈ c.journal
  /-- One call does all that is done to an entry : it claims it, tells its service to close, waits
  until that is closed and then closes its hop, each once and in this order. -/
  release : ∀ e, ∃ id, c.deedsOf e <+: released id e
  /-- When every call has ended, an entry is the open one of its key in the map, or it is released
  in full. -/
  at_rest : c.AtRest → ∀ key e, c.entryKey? e = some key →
    c.isOpen e = true ∧ c.find? key = some e ∨
      c.isClosed e = true ∧ ∃ id, c.deedsOf e = released id e

/-- Where no call was cancelled, nothing is abandoned. -/
theorem Sound.not_abandoned (hc : c.Sound) (h : ∀ id, c.result? id ≠ some .aborted) {id : CallId} :
    (id, .abandon e) ∉ c.deedsOf e := by
  intro hd
  obtain ⟨call, hcall, -, haborted⟩ := hc.accounted id _ (mem_deedsOf.1 hd).1
  exact h id (result?_eq_some_iff.2 ⟨call, hcall, haborted e rfl⟩)

/-- An account without an abandoned release is the beginning of a release. -/
theorem Account.release {H : CallId → Hand} (ha : Account c H)
    (hnone : ∀ id, (id, .abandon e) ∉ c.deedsOf e) : ∃ id, c.deedsOf e <+: released id e := by
  by_cases hnil : c.deedsOf e = []
  · exact ⟨0, hnil ▸ List.nil_prefix⟩
  · rcases ha.stage e hnil with ⟨id, h⟩ | ⟨id, h⟩ | ⟨id, h⟩ | ⟨id, h⟩
    · exact ⟨id, ha.claimed id e h ▸ ⟨_, rfl⟩⟩
    · exact ⟨id, ha.releasing id e h ▸ ⟨_, rfl⟩⟩
    · exact ⟨id, h ▸ List.prefix_rfl⟩
    · exact absurd h (hnone id)

/-- An account that has begun begins with a claim. -/
theorem Account.claim_iff {H : CallId → Hand} (ha : Account c H)
    (hnone : ∀ id, (id, .abandon e) ∉ c.deedsOf e) :
    c.isClosed e = true ↔ ∃ id, (id, .claim e) ∈ c.journal := by
  rw [ha.closed_iff]
  constructor
  · intro hne
    obtain ⟨id, ds, hds⟩ := ha.release hnone
    refine ⟨id, (mem_deedsOf (e := e)).1 ?_ |>.1⟩
    cases hd : c.deedsOf e with
    | nil => exact absurd hd hne
    | cons d rest =>
      rw [hd] at hds
      obtain rfl : d = (id, .claim e) := (List.cons.inj hds).1
      exact List.mem_cons_self
  · rintro ⟨id, hd⟩
    exact List.ne_nil_of_mem (mem_deedsOf.2 ⟨hd, rfl⟩)

/-- An entry that is there is open or closed. -/
theorem isClosed_of_not_isOpen (he : c.entryKey? e = some key) (h : c.isOpen e ≠ true) :
    c.isClosed e = true := by
  obtain ⟨entry, hentry, -⟩ := Option.map_eq_some_iff.1 he
  refine isClosed_eq_true_iff.2 ⟨entry, hentry, ?_⟩
  by_contra hopen
  exact h (isOpen_eq_true_iff.2 ⟨entry, hentry, Bool.eq_false_iff.2 hopen⟩)

/-- After a run in which no call is cancelled every entry has its owner. -/
theorem ownership (ttl : Nat) (events : List Event)
    (hnone : ∀ id, ((new ttl).run events).result? id ≠ some .aborted) :
    ((new ttl).run events).Owned := by
  have hc : ((new ttl).run events).Sound := (Sound.new ttl).run events
  have ha := account_run ttl events
  have hv := custody_run ttl (spared_of_no_aborted (.new ttl) hnone)
  have hkept : ∀ {e}, ∀ id, (id, .abandon e) ∉ ((new ttl).run events).deedsOf e :=
    fun _ => hc.not_abandoned hnone
  refine ⟨fun key slot e => hv.openFor_of_row hc.guarded, fun key e => hv.find_or_drained hc,
    fun e => ha.claim_iff hkept, fun e => ha.release hkept, fun hrest key e he => ?_⟩
  by_cases hopen : ((new ttl).run events).isOpen e = true
  · refine .inl ⟨hopen, (hv.find_or_drained hc ⟨he, hopen⟩).resolve_right ?_⟩
    rintro ⟨id, call, slot, hcall, -, hs, -⟩
    obtain ⟨r, hr⟩ := hrest call (List.mem_of_getElem? hcall)
    rw [hr] at hs
    cases hs
  · have hclosed := isClosed_of_not_isOpen he hopen
    refine .inr ⟨hclosed, (ha.released_or_abandoned hrest hclosed).resolve_right ?_⟩
    rintro ⟨id, hd⟩
    exact hkept id hd

/-- While a `closeAll` waits, every entry still has its owner. -/
theorem ownership_during_closeAll : ((new 1000).run slowDrain).Owned := by
  have hcalls : ((new 1000).run slowDrain).calls =
      [⟨.get ⟨"a"⟩, .ended (.service 0)⟩, ⟨.get ⟨"b"⟩, .ended (.service 1)⟩,
        ⟨.closeAll, .draining 0 [1] 0⟩, ⟨.get ⟨"b"⟩, .ended (.service 2)⟩] := by decide
  refine ownership 1000 slowDrain fun id h => ?_
  obtain ⟨call, hcall, hr⟩ := result?_eq_some_iff.1 h
  have hmem := List.mem_of_getElem? hcall
  rw [hcalls] at hmem
  simp only [List.mem_cons, List.not_mem_nil, or_false] at hmem
  rcases hmem with rfl | rfl | rfl | rfl <;> cases hr

end Cache

end ConnectionBroker
