import ConnectionBroker.Proofs.Cache.Outside
import ConnectionBroker.Proofs.Cache.Ownership
import ConnectionBroker.Proofs.Cache.Report
import ConnectionBroker.Proofs.Cache.Serving
import ConnectionBroker.Proofs.Cache.SingleFlight

/-!
# A close that hits a construction

A `close`, a `closeAll` or a shutdown takes the slot of a key out of the map also while somebody
builds there. The slot lives on outside the map, with its builder and those who wait for it. So the
builder finds the slot outside the map when it is done : it claims what it has just built and
releases it, and leaves everything else as it is (`built_outside`). Those who wait find a closed
entry in the slot and begin another round (`wake_outside`). The closing call never claims what was
built, so it does not count it. All of that is what a request to close a key promises for a
construction that it hits (`honoured_of_close`).
-/

namespace ConnectionBroker

namespace Cache

variable {id b w : CallId} {op : Operation} {c c' : Cache} {key : Fingerprint} {slot : SlotId}
  {e : EntryId} {left : Nat} {service : ServiceId} {r : Resource}

/-! ## What is built outside the map -/

/-- A factory call that ends in a slot outside the map : the entry is made, claimed and released
by the call that built it, and nothing else changes. -/
theorem built_outside (ha : c.activity? b = some (.getting key left (.building slot)))
    (hout : c.isCurrent key slot = false) (r : Resource) :
    c.built b (.resource r) =
      ((((({ c with entries := c.entries ++ [Entry.fresh key r c.net.now c.ttl] } : Cache).conclude
          slot (.ready c.entries.length)).setEntry c.entries.length
            { Entry.fresh key r c.net.now c.ttl with closed := true }).note b
              (.claim c.entries.length)).beginRelease b c.entries.length).setActivity b
                (.getting key left (.discarding c.entries.length)) := by
  have hmark : (({ c with entries := c.entries ++ [Entry.fresh key r c.net.now c.ttl] } :
      Cache).conclude slot (.ready c.entries.length)).markClosed b c.entries.length =
        (true, ((({ c with entries := c.entries ++ [Entry.fresh key r c.net.now c.ttl] } :
          Cache).conclude slot (.ready c.entries.length)).setEntry c.entries.length
            { Entry.fresh key r c.net.now c.ttl with closed := true }).note b
              (.claim c.entries.length)) := by
    simp [markClosed, conclude, updateSlot, Entry.markClosed, Entry.fresh]
  have hout' : (({ c with entries := c.entries ++ [Entry.fresh key r c.net.now c.ttl] } :
      Cache).conclude slot (.ready c.entries.length)).isCurrent key slot = false := hout
  simp only [built, ha, observe, hout', hmark, Bool.false_eq_true, if_false]

/-- Whoever waits at a slot outside the map whose entry is closed begins another round. -/
theorem wake_outside (ha : c.activity? w = some (.getting key left (.waiting slot)))
    (hout : c.isCurrent key slot = false) (ho : c.outcome? slot = some (.ready e))
    (hclosed : c.isOpen e = false) :
    c.wake w = (c.round w key left).2.setActivity w (c.round w key left).1 := by
  have hmark : c.markClosed w e = (false, c) := by
    rcases c.markClosed_cases w e with ⟨entry, he, hopen, -⟩ | ⟨-, heq⟩
    · rw [isOpen_eq_true_iff.2 ⟨entry, he, hopen⟩] at hclosed
      cases hclosed
    · exact heq
  simp [wake, ha, ho, observe, hout, hmark]

/-- What a factory call that ends outside the map does : the entry that it has built is closed and
being released by its builder, and all the rest is as before. -/
structure SetAside (c c' : Cache) (b : CallId) (key : Fingerprint) (slot : SlotId) (r : Resource) :
    Prop where
  activity : ∃ left, c'.activity? b = some (.getting key left (.discarding c.entries.length))
  entry : c'.entries[c.entries.length]? =
    some { Entry.fresh key r c.net.now c.ttl with closed := true }
  outcome : c'.outcome? slot = some (.ready c.entries.length)
  journal : c'.journal =
    c.journal ++ [(b, .claim c.entries.length), (b, .tellService c.entries.length)]
  /-- The map is left alone, whatever the key has there now. -/
  rows : c'.current = c.current
  /-- So are the other slots, -/
  slots : ∀ s, s ≠ slot → c'.slots[s]? = c.slots[s]?
  /-- the other entries -/
  entries : ∀ i, i < c.entries.length → c'.entries[i]? = c.entries[i]?
  /-- and the other calls. -/
  calls : ∀ id, id ≠ b → c'.calls[id]? = c.calls[id]?

theorem setAside_built (ha : c.activity? b = some (.getting key left (.building slot)))
    (hlt : slot < c.slots.length) (hout : c.isCurrent key slot = false) (r : Resource) :
    c.SetAside (c.built b (.resource r)) b key slot r := by
  obtain ⟨call, hcall, -⟩ := activity?_eq_some_iff.1 ha
  rw [built_outside ha hout r]
  generalize hm : (((({ c with entries := c.entries ++ [Entry.fresh key r c.net.now c.ttl] } :
    Cache).conclude slot (.ready c.entries.length)).setEntry c.entries.length
      { Entry.fresh key r c.net.now c.ttl with closed := true }).note b
        (.claim c.entries.length)) = m
  obtain ⟨net, hnet⟩ := m.beginRelease_eq b c.entries.length
  rw [hnet, ← hm]
  refine ⟨⟨left, ?_⟩, ?_, ?_, ?_, rfl, fun s hs => ?_, fun i hi => ?_, fun id hid => ?_⟩
  · simp [activity?, setActivity, note, setEntry, conclude, updateSlot, hcall]
  · simp [setActivity, note, setEntry, conclude, updateSlot]
  · exact outcome?_conclude_self
      (c := { c with entries := c.entries ++ [Entry.fresh key r c.net.now c.ttl] }) hlt
  · simp [setActivity, note, setEntry, conclude, updateSlot]
  · exact (slots_updateSlot c slot s _).trans (if_neg (Ne.symm hs))
  · simp [setActivity, note, setEntry, conclude, updateSlot, List.getElem?_append_left hi]
  · simp [setActivity, note, setEntry, conclude, updateSlot, Ne.symm hid]

/-! ## Whose services are returned -/

/-- Every service that was returned is the one of an entry, and of none of these. -/
def ReturnsNone (c : Cache) (X : EntryId → Prop) : Prop :=
  ∀ id service, c.result? id = some (.service service) →
    ∃ e entry, ¬X e ∧ c.entries[e]? = some entry ∧ entry.resource.service = service

/-- Nobody gets the service of a closed entry. -/
theorem ReturnsNone.run (hc : c.Sound) {X : EntryId → Prop} (hX : ∀ e, X e → c.isClosed e = true)
    (hr : c.ReturnsNone X) (events : List Event) : (c.run events).ReturnsNone X := by
  induction events generalizing c with
  | nil => exact hr
  | cons ev rest ih =>
    have hstep := strides_run_any hc [ev]
    have hages := hstep.ages
    refine ih (hc.run [ev]) (fun e he => hages.isClosed (hX e he)) fun id service h => ?_
    cases hold : c.result? id with
    | none =>
      obtain ⟨key, x, m, e, entry, calls, hs, hservice, hx, -⟩ := serves_of_step hc hold h
      obtain ⟨hopen, -, -, hused, -⟩ := used_of_serves hs
      refine ⟨e, { entry with lastUse := m.net.now }, fun he => ?_, ?_, hservice⟩
      · have hclosed := hages.isClosed (hX e he)
        rw [show c.run [ev] = c.step ev from rfl, hx] at hclosed
        rw [isClosed_eq_false (c := { x with calls }) hused hopen] at hclosed
        cases hclosed
      · rw [hx]
        exact hused
    | some r =>
      obtain rfl : r = .service service := Option.some.inj ((hstep.result? hold).symm.trans h)
      obtain ⟨e, entry, hnot, he, hservice⟩ := hr id service hold
      obtain ⟨entry', he', hage⟩ := hages.old e entry he
      exact ⟨e, entry', hnot, he', by rw [hage.resource, hservice]⟩

/-! ## The promise of a close -/

/-- A call begins another round on the cache as it is. -/
def beginRound (c : Cache) (id : CallId) (key : Fingerprint) (left : Nat) : Cache :=
  (c.round id key left).2.setActivity id (c.round id key left).1

/-- What a request to close a key promises for a construction that it hits. The call `b` was
building in the slot when the call `closer` took the key out of the map, and still is in `c₂`. There
the construction ends with a resource, which becomes the next entry; `c` is any time after that. -/
structure Honoured (c₂ c : Cache) (closer b : CallId) (key : Fingerprint) (slot : SlotId)
    (r : Resource) : Prop where
  /-- What was built is an entry of the key, -/
  built : ∃ entry, c.entries[c₂.entries.length]? = some entry ∧ entry.key = key ∧ entry.resource = r
  /-- but no call ever returns its service, -/
  not_returned : c.ReturnsNone (· = c₂.entries.length)
  /-- and it is found under no key -/
  not_found : ∀ key', c.find? key' ≠ some c₂.entries.length
  /-- nor counted among the open entries. -/
  not_listed : c₂.entries.length ∉ c.openEntries
  /-- The call that built it, and nobody else, has released it, or is about to. -/
  released : c.deedsOf c₂.entries.length = released b c₂.entries.length ∨
    (c.hands b).releasing = some c₂.entries.length ∧ c.deedsOf c₂.entries.length =
      [(b, .claim c₂.entries.length), (b, .tellService c₂.entries.length)]
  /-- When every call has ended it has. -/
  at_rest : c.AtRest → c.deedsOf c₂.entries.length = Cache.released b c₂.entries.length
  /-- The closing call reports what it has claimed, and that is something else. -/
  not_counted : c₂.entries.length ∉ c.claimsOf closer ∧
    ∀ n, (c.activity? closer).bind Activity.tally? = some n → (c.claimsOf closer).length = n
  /-- Whatever else there is, under the key too, is left alone when the construction ends, -/
  aside : c₂.SetAside (c₂.step (.built b (.resource r))) b key slot r
  /-- after the builder's release, when it looks for another slot, -/
  builder : ∀ key' left, c.activity? b = some (.getting key' left (.discarding c₂.entries.length)) →
    c.step (.serviceClosed b) = (c.endRelease b c₂.entries.length).beginRound b key' left
  /-- and by those who waited for it, who look for another slot at once. -/
  waiters : ∀ w key' left, c.activity? w = some (.getting key' left (.waiting slot)) →
    c.step (.wake w) = c.beginRound w key' left

/-- A slot where somebody builds when its key is closed is outside the map from then on. -/
theorem outside_of_closes (hc : c.Sound) (hop : op.Closes key) (hb : c.Builds b key slot)
    (between : List Event) : (key, slot) ∉ ((c.step (.call op)).run between).current := by
  have hlt := lt_of_slotKey? (hc.guarded.building b key slot hb.building).1
  have hclose := (strides_run_any hc [.call op]).renews
  have hafter := (strides_run_any (hc.run [.call op]) between).renews
  exact hafter.not_mem (Nat.lt_of_lt_of_le hlt hclose.slots) (not_mem_of_closes hc.guarded hop slot)

/-- Nobody but the call that claimed an entry and began to release it, finishes the release. -/
theorem Account.release_of_begun (ha : Account c c.hands)
    (hnone : ∀ id, (id, .abandon e) ∉ c.deedsOf e)
    (hbegun : [(b, .claim e), (b, .tellService e)] <+: c.deedsOf e) :
    c.deedsOf e = Cache.released b e ∨ (c.hands b).releasing = some e ∧
      c.deedsOf e = [(b, .claim e), (b, .tellService e)] := by
  obtain ⟨rest, hrest⟩ := hbegun
  rcases ha.stage e (by simp [← hrest]) with ⟨id, h⟩ | ⟨id, h⟩ | ⟨id, h⟩ | ⟨id, h⟩
  · have hdeeds := ha.claimed id e h
    rw [← hrest] at hdeeds
    simp at hdeeds
  · have hdeeds := ha.releasing id e h
    obtain ⟨rfl, rfl⟩ : b = id ∧ rest = [] := by
      rw [← hrest] at hdeeds
      simpa using hdeeds
    exact .inr ⟨h, hdeeds⟩
  · obtain rfl : b = id := by
      simpa [Cache.released] using congrArg List.head? (hrest.trans h)
    exact .inl h
  · exact absurd h (hnone id)

namespace SetAside

variable {c₂ c₃ c₄ : Cache}

theorem closed (hs : c₂.SetAside c₃ b key slot r) : c₃.isClosed c₂.entries.length = true :=
  isClosed_eq_true_iff.2 ⟨_, hs.entry, rfl⟩

/-- What is set aside is released by the call that built it, or is about to be. -/
theorem release (hs : c₂.SetAside c₃ b key slot r) (hdeeds : c₂.deedsOf c₂.entries.length = [])
    (hlater : Strides (fun _ => True) c₃ c₄) (hacc : Account c₄ c₄.hands)
    (hnone : ∀ id, (id, .abandon c₂.entries.length) ∉ c₄.deedsOf c₂.entries.length) :
    c₄.deedsOf c₂.entries.length = Cache.released b c₂.entries.length ∨
      (c₄.hands b).releasing = some c₂.entries.length ∧ c₄.deedsOf c₂.entries.length =
        [(b, .claim c₂.entries.length), (b, .tellService c₂.entries.length)] := by
  have hbegun : c₃.deedsOf c₂.entries.length =
      [(b, .claim c₂.entries.length), (b, .tellService c₂.entries.length)] := by
    rw [deedsOf_of_append hs.journal, hdeeds]
    simp [Deed.about]
  refine hacc.release_of_begun hnone ?_
  rw [← hbegun]
  exact hlater.journal.filter _

/-- Nobody is served what is set aside, then or later. -/
theorem returnsNone (hs : c₂.SetAside c₃ b key slot r) (hc₃ : c₃.Sound)
    (hret : c₂.ReturnsNone fun _ => False) (after : List Event) :
    (c₃.run after).ReturnsNone (· = c₂.entries.length) := by
  refine ReturnsNone.run hc₃ (by rintro _ rfl; exact hs.closed) (fun id service h => ?_) after
  have hid : id ≠ b := by
    rintro rfl
    obtain ⟨left, hact⟩ := hs.activity
    simp [result?, hact] at h
  have hold : c₂.result? id = some (.service service) := by
    rwa [result?, activity?, hs.calls id hid] at h
  obtain ⟨e, entry, -, he, hservice⟩ := hret id service hold
  obtain ⟨hlt, -⟩ := List.getElem?_eq_some_iff.1 he
  exact ⟨e, entry, Nat.ne_of_lt hlt, by rw [hs.entries e hlt, he], hservice⟩

/-- What is set aside stays so, and the promise of the close is kept. -/
theorem honoured {closer : CallId} {builder call : Call} (hs : c₂.SetAside c₃ b key slot r)
    (hstep : c₂.step (.built b (.resource r)) = c₃) (hc₃ : c₃.Sound)
    (hdeeds : c₂.deedsOf c₂.entries.length = []) (hout : ∀ k, (k, slot) ∉ c₃.current)
    (hret : c₂.ReturnsNone fun _ => False) (hbuilder : c₂.calls[b]? = some builder)
    (hget : ¬builder.operation.Closing) (hcloser : c₂.calls[closer]? = some call)
    (hop : call.operation.Closing) (after : List Event)
    (hacc : Account (c₃.run after) (c₃.run after).hands) (hreport : (c₃.run after).Reported)
    (hnone : ∀ id, (c₃.run after).result? id ≠ some .aborted) :
    Honoured c₂ (c₃.run after) closer b key slot r := by
  have hlater : Strides (fun _ => True) c₃ (c₃.run after) := strides_run_any hc₃ after
  have hages := hlater.ages
  have hnotopen : (c₃.run after).isOpen c₂.entries.length = false := by
    obtain ⟨entry, he, hcl⟩ := isClosed_eq_true_iff.1 (hages.isClosed hs.closed)
    simp [isOpen, he, hcl]
  have hreleased := hs.release hdeeds hlater hacc fun id => (hc₃.run after).not_abandoned hnone
  have hne : closer ≠ b := by
    rintro rfl
    obtain rfl : builder = call := Option.some.inj (hbuilder.symm.trans hcloser)
    exact hget hop
  have hout' : ∀ k, (c₃.run after).isCurrent k slot = false := fun k =>
    Bool.eq_false_iff.2 fun hcur =>
      hlater.renews.not_mem (lt_of_outcome? hs.outcome) (hout k) (mem_of_isCurrent hcur)
  have hready := ((kept_outcome _ slot _).strides hlater ⟨hc₃.guarded, hs.outcome⟩).2
  refine ⟨?_, hs.returnsNone hc₃ hret after, fun key' hfound => ?_, fun hmem => ?_, hreleased,
    fun hrest => ?_, ⟨fun hclaim => ?_, fun n hn => ?_⟩, hstep ▸ hs, fun key' left ha => ?_,
    fun w key' left ha => wake_outside ha (hout' key') hready hnotopen⟩
  · obtain ⟨entry, he, hage⟩ := hages.old _ _ hs.entry
    exact ⟨entry, he, hage.key, hage.resource⟩
  · obtain ⟨-, -, -, hopen⟩ := find?_eq_some_iff.1 hfound
    rw [hnotopen] at hopen
    cases hopen
  · rw [openEntries, List.mem_filter, hnotopen] at hmem
    cases hmem.2
  · refine hreleased.resolve_right fun h => ?_
    rw [hrest.hands b] at h
    cases h.1
  · have hmem : (closer, .claim c₂.entries.length) ∈ (c₃.run after).deedsOf c₂.entries.length :=
      mem_deedsOf.2 ⟨mem_claimsOf.1 hclaim, rfl⟩
    rcases hreleased with h | ⟨-, h⟩ <;> rw [h] at hmem <;> simp [Cache.released, hne] at hmem
  · exact hreport.of_call hlater (by rw [hs.calls closer hne, hcloser]) hop hn
  · simp [step, serviceClosed, ha, afterClose, beginRound]

end SetAside

/-- A call that begins is a call of its operation. -/
theorem call_call (c : Cache) (op : Operation) :
    ∃ call, (c.call op).2.calls[c.calls.length]? = some call ∧ call.operation = op := by
  have hlen : (begin c.calls.length c op).2.calls.length = c.calls.length := by
    by_cases hop : op = .shutdown
    · subst hop
      rw [← length_calls_stopSweeper c]
      exact congrArg List.length (moves_frame (performs_shutdown _ c.stopSweeper).moves).1
    · exact congrArg List.length (moves_frame (performs_begin _ op hop c).moves).1
  have hlast : ((begin c.calls.length c op).2.calls ++ [⟨op, (begin c.calls.length c op).1⟩])[
      (begin c.calls.length c op).2.calls.length]? = some ⟨op, (begin c.calls.length c op).1⟩ :=
    List.getElem?_concat_length
  rw [hlen] at hlast
  exact ⟨_, hlast, rfl⟩

/-- In every run in which no call is cancelled, a request to close a key is honoured also by a
construction that it hits : one that has begun before the key is taken out of the map, and ends
with a resource after that. -/
theorem honoured_of_close (ttl : Nat) (before between after : List Event) (op : Operation)
    (key : Fingerprint) (b : CallId) (slot : SlotId) (r : Resource) (hop : op.Closes key)
    (hbegun : ((new ttl).run before).Builds b key slot)
    (hending : ((new ttl).run (before ++ .call op :: between)).Builds b key slot)
    (hnone : ∀ id, ((new ttl).run
      (before ++ .call op :: between ++ .built b (.resource r) :: after)).result? id ≠ some .aborted) :
    Honoured ((new ttl).run (before ++ .call op :: between))
      ((new ttl).run (before ++ .call op :: between ++ .built b (.resource r) :: after))
      ((new ttl).run before).calls.length b key slot r := by
  have hc₀ : ((new ttl).run before).Sound := (Sound.new ttl).run before
  have hc₂ : ((new ttl).run (before ++ .call op :: between)).Sound := (Sound.new ttl).run _
  have hacc₂ := account_run ttl (before ++ .call op :: between)
  have hacc := account_run ttl (before ++ .call op :: between ++ .built b (.resource r) :: after)
  have hreport :=
    reported_run ttl (before ++ .call op :: between ++ .built b (.resource r) :: after)
  have hret : ((new ttl).run (before ++ .call op :: between)).ReturnsNone fun _ => False :=
    ReturnsNone.run (.new ttl) (fun _ h => h.elim)
      (by simp [ReturnsNone, result?, activity?, Cache.new]) _
  have hout : (key, slot) ∉ ((new ttl).run (before ++ .call op :: between)).current := by
    rw [run_append]
    exact outside_of_closes hc₀ hop hbegun between
  obtain ⟨call, hcall, hcallop⟩ :
      ∃ call, ((new ttl).run (before ++ .call op :: between)).calls[
        ((new ttl).run before).calls.length]? = some call ∧ call.operation = op := by
    obtain ⟨call, hcall, rfl⟩ := call_call ((new ttl).run before) op
    rw [run_append]
    obtain ⟨call', hcall', hsame, -⟩ :=
      (strides_run_any (hc₀.run [.call _]) between).keeps_call hcall
    exact ⟨call', hcall', hsame⟩
  rw [run_append _ _ (.built b (.resource r) :: after)] at hacc hreport hnone ⊢
  generalize (new ttl).run (before ++ .call op :: between) = c₂ at *
  obtain ⟨left, ha⟩ := hending
  obtain ⟨builder, hbuilder, hact⟩ := activity?_eq_some_iff.1 ha
  obtain ⟨hkey, -, -⟩ := hc₂.guarded.building b key slot (Builds.building ⟨left, ha⟩)
  have hs := setAside_built ha (lt_of_slotKey? hkey)
    (Bool.eq_false_iff.2 fun hcur => hout (mem_of_isCurrent hcur)) r
  have hgetting : ¬builder.operation.Closing :=
    not_closing_of_getting (hact ▸ hc₂.attuned.fits builder (List.mem_of_getElem? hbuilder))
  refine hs.honoured rfl (hc₂.run [.built b (.resource r)]) hacc₂.deedsOf_length
    (fun k hrow => ?_) hret hbuilder hgetting hcall ⟨key, hcallop ▸ hop⟩ after hacc hreport hnone
  rw [hs.rows] at hrow
  obtain rfl := Option.some.inj (hkey.symm.trans (hc₂.guarded.row_key k slot hrow))
  exact hout hrow

/-- A key is closed during a construction, and constructed a second time meanwhile. -/
def closedMeanwhile : List Event :=
  [.call (.get ⟨"k"⟩)] ++ .call (.close ⟨"k"⟩) :: [.call (.get ⟨"k"⟩)]

/-- The first construction ends, its builder waits for the second one, and gets what is built
there. -/
def builtAfterClose : List Event :=
  closedMeanwhile ++ .built 0 (.resource ⟨0, .direct⟩) ::
    [.serviceClosed 0, .built 2 (.resource ⟨1, .direct⟩), .wake 0]

/-- What is constructed second is returned to both callers, what was constructed first to none. -/
theorem honoured_beside_newcomer :
    Honoured ((new 1000).run closedMeanwhile) ((new 1000).run builtAfterClose)
      ((new 1000).run [.call (.get ⟨"k"⟩)]).calls.length 0 ⟨"k"⟩ 0 ⟨0, .direct⟩ := by
  refine honoured_of_close 1000 [.call (.get ⟨"k"⟩)] [.call (.get ⟨"k"⟩)]
    [.serviceClosed 0, .built 2 (.resource ⟨1, .direct⟩), .wake 0] (.close ⟨"k"⟩) ⟨"k"⟩ 0 0
    ⟨0, .direct⟩ rfl ⟨3, by decide⟩ ⟨3, by decide⟩ (result?_ne_iff.2 ?_)
  show ∀ call ∈ ((new 1000).run builtAfterClose).calls, call.activity ≠ .ended .aborted
  decide

end Cache

end ConnectionBroker
