import ConnectionBroker.Proofs.Cache.Aging
import ConnectionBroker.Proofs.Cache.Teardown

/-!
# What a caller gets

A `get` may have slept in its own sweep, in a construction or behind somebody else's, and meanwhile
the key may have been closed, evicted and built again. Whatever it went through, the last thing
that it does before it returns a service is to look at the key once more : the entry that it then
uses is the one under the key, open, with a living hop and not idle for long (`Served`). The
stretches say so of the calls that carry them out (`Serves`), and only a step that is one stretch
of a `get` brings a service, so every service that is ever returned was found that way
(`served_of_result`).
-/

namespace ConnectionBroker

namespace Cache

variable {id i : CallId} {op : Operation} {c c' m : Cache} {key : Fingerprint} {e : EntryId}
  {entry : Entry} {service : ServiceId} {r : Result} {P : Call → Prop} {ev : Event}

/-! ## Results -/

theorem result?_setActivity {a : Activity} (h : (c.setActivity i a).result? id = some r) :
    i = id ∧ a = .ended r ∨ c.result? id = some r := by
  obtain ⟨call, hcall, hr⟩ := result?_eq_some_iff.1 h
  rw [setActivity, List.getElem?_modify] at hcall
  by_cases hi : i = id
  · obtain ⟨old, -, rfl⟩ : ∃ old, c.calls[id]? = some old ∧ { old with activity := a } = call := by
      simpa [hi] using hcall
    exact .inl ⟨hi, hr⟩
  · exact .inr (result?_eq_some_iff.2 ⟨call, by simpa [hi] using hcall, hr⟩)

theorem result?_append {a : Activity}
    (h : ({ c with calls := c.calls ++ [⟨op, a⟩] } : Cache).result? id = some r) :
    id = c.calls.length ∧ a = .ended r ∨ c.result? id = some r := by
  obtain ⟨call, hcall, hr⟩ := result?_eq_some_iff.1 h
  by_cases hi : id = c.calls.length
  · subst hi
    obtain rfl : ⟨op, a⟩ = call := by simpa using hcall
    exact .inl ⟨rfl, hr⟩
  · rw [getElem?_append_of_ne _ hi] at hcall
    exact .inr (result?_eq_some_iff.2 ⟨call, hcall, hr⟩)

theorem result?_congr (h : c'.calls = c.calls) : c'.result? id = c.result? id := by
  simp [result?, activity?, h]

/-- A cancelled call returns nothing. -/
theorem result?_abort (h : (c.abort i).result? id = some r) :
    r = .aborted ∨ c.result? id = some r := by
  rcases c.abort_cases i with ⟨hself, -⟩ | ⟨call, hcall, hlive⟩
  · exact .inr (hself ▸ h)
  · rw [result?_congr (calls_abort hcall hlive)] at h
    exact (result?_setActivity h).imp_left fun h => (Activity.ended.inj h.2).symm

theorem result?_stopSweeper (h : c.stopSweeper.result? id = some r) :
    r = .aborted ∨ c.result? id = some r := by
  rcases c.stopSweeper_cases with ⟨heq, -⟩ | ⟨s, id, -, -, heq⟩ <;> rw [heq] at h
  · exact .inr h
  · exact result?_abort (c := { c with sweeper := none }) h

/-! ## Strides and steps that bring a service -/

/-- A stride that brings a service is a stretch of the `get` that returns it. -/
theorem Stride.serves (hs : Stride P c c') (h : c.result? id = none)
    (h' : c'.result? id = some (.service service)) :
    ∃ key x m e entry calls, Serves id (.get key) (c, c.hands id) x key m e entry ∧
      entry.resource.service = service ∧ c' = { x with calls } ∧
        calls[id]? = some ⟨.get key, .ended (.service service)⟩ := by
  have hno : c.result? id ≠ some (.service service) := by simp [h]
  cases hs with
  | world | reorder | sweeper => exact absurd h' hno
  | @start x op a hp =>
    have hcalls : x.calls = c.calls := (moves_frame hp.moves).1
    obtain ⟨rfl, rfl⟩ : id = c.calls.length ∧ a = .ended (.service service) := by
      have hnew := result?_append h'
      rw [result?_congr hcalls, hcalls] at hnew
      exact hnew.resolve_right hno
    obtain ⟨key, m, e, entry, hserves, hservice⟩ := hp.serves service rfl
    obtain rfl := hserves.asked
    rw [hands_length]
    exact ⟨key, x, m, e, entry, _, hserves, hservice, rfl, by rw [hcalls]; simp⟩
  | @resume x i call a hcall hlive hp =>
    have hcalls : x.calls = c.calls := (moves_frame hp.moves).1
    obtain ⟨rfl, rfl⟩ : i = id ∧ a = .ended (.service service) := by
      have hnew := result?_setActivity h'
      rw [result?_congr hcalls] at hnew
      exact hnew.resolve_right hno
    obtain ⟨key, m, e, entry, hserves, hservice⟩ := hp.serves service rfl
    have hop := hserves.asked
    rw [hop] at hserves
    rw [hands_of_call hcall]
    refine ⟨key, x, m, e, entry, _, hserves, hservice, rfl, ?_⟩
    simp [hcalls, hcall, hop]
  | cancel => exact absurd (result?_abort h') (by simp [hno])

/-- A call that is not a `get` brings no service. -/
theorem result?_call (hop : ∀ key, op ≠ .get key)
    (h : (c.call op).2.result? id = some (.service service)) :
    c.result? id = some (.service service) := by
  -- The first stretch begins after the sweeper is stopped, if it is a shutdown's.
  obtain ⟨c₁, hp, hresult⟩ : ∃ c₁ : Cache,
      Performs c.calls.length op (c₁, {}) (begin c.calls.length c op) ∧
        (c₁.result? id = some (.service service) → c.result? id = some (.service service)) := by
    by_cases hshut : op = .shutdown
    · subst hshut
      exact ⟨c.stopSweeper, performs_shutdown _ _, fun h =>
        (result?_stopSweeper h).resolve_left (by simp)⟩
    · exact ⟨c, performs_begin _ op hshut c, fun h => h⟩
  have hcalls : (begin c.calls.length c op).2.calls = c₁.calls := (moves_frame hp.moves).1
  rcases result?_append (c := (begin c.calls.length c op).2) h with ⟨-, ha⟩ | hold
  · obtain ⟨key, m, e, entry, hserves, -⟩ := hp.serves service ha
    exact absurd hserves.asked (hop key)
  · exact hresult (result?_congr hcalls ▸ hold)

/-- Starting and stopping a sweep of the sweeper brings no service. -/
theorem result?_of_quiet (hev : ev.StopsSweeper ∨ ev = .tick)
    (h : (c.step ev).result? id = some (.service service)) :
    c.result? id = some (.service service) := by
  rcases hev with hev | rfl
  · cases ev with
    | call op =>
      cases op with
      | shutdown => exact result?_call (by simp) h
      | _ => exact hev.elim
    | spawnSweeper interval =>
      have hstop : c.stopSweeper.result? id = some (.service service) := by
        unfold step spawnSweeper at h
        dsimp only at h
        split at h <;> exact h
      exact (result?_stopSweeper hstop).resolve_left (by simp)
    | _ => exact hev.elim
  · unfold step tick at h
    dsimp only at h
    split at h
    · split at h
      · have hop : ∀ key, Operation.sweep ≠ .get key := by simp
        exact result?_call hop h
      · exact h
    · exact h

/-- A step that brings a service is a stretch of the `get` that returns it. -/
theorem serves_of_step (hc : c.Sound) (h : c.result? id = none)
    (h' : (c.step ev).result? id = some (.service service)) :
    ∃ key x m e entry calls, Serves id (.get key) (c, c.hands id) x key m e entry ∧
      entry.resource.service = service ∧ c.step ev = { x with calls } ∧
        calls[id]? = some ⟨.get key, .ended (.service service)⟩ := by
  by_cases hquiet : ev.StopsSweeper ∨ ev = .tick
  · rw [result?_of_quiet hquiet h'] at h
    cases h
  · rw [not_or] at hquiet
    have hstep : Relation.ReflGen (Stride fun _ => True) c (c.step ev) :=
      stride_step hc hquiet.1 hquiet.2 fun _ _ => .inl fun _ => trivial
    generalize c.step ev = c' at h' hstep ⊢
    cases hstep with
    | refl =>
      rw [h] at h'
      cases h'
    | single hs => exact hs.serves h h'

/-! ## What is found in the last moment -/

/-- What a caller gets : a service comes out in the step from one cache to another. -/
structure Served (c c' : Cache) (id : CallId) (key : Fingerprint) (e : EntryId) (entry : Entry)
    (service : ServiceId) : Prop where
  /-- It is a `get` of the key that returns it. -/
  returned : c'.calls[id]? = some ⟨.get key, .ended (.service service)⟩
  /-- It is the service of the entry that is under the key at that time. -/
  found : c'.find? key = some e
  owned : entry.resource.service = service
  /-- The entry is not closed. -/
  opened : entry.closed = false
  /-- Its release has not begun, nor has anything else been done to it. -/
  untouched : c'.deedsOf e = []
  /-- It was not idle for its time to live. -/
  idle_lt : c'.net.now - entry.lastUse < c'.ttl
  /-- In that very step its hop said that it is alive. -/
  alive : ∃ m h, Moves id (.get key) (c, c.hands id) (m, h) ∧ m.entries[e]? = some entry ∧
    m.net.checkHop entry.resource.hop = (true, c'.net)
  /-- Its idle time starts over. -/
  used : c'.entries[e]? = some { entry with lastUse := c'.net.now }

/-- A hop that is asked in order to use an entry says that it is alive. -/
theorem checkHop_of_fresh (hopen : entry.closed = false)
    (hfresh : entry.isStale c.net.now (c.checkEntry entry).1 = false) :
    entry.isIdle c.net.now = false ∧
      c.net.checkHop entry.resource.hop = (true, (c.checkEntry entry).2.net) := by
  have hidle : entry.isIdle c.net.now = false := by
    rw [Entry.isStale, Bool.or_eq_false_iff] at hfresh
    exact hfresh.1
  have hask : c.checkEntry entry =
      ((c.net.checkHop entry.resource.hop).1,
        { c with net := (c.net.checkHop entry.resource.hop).2 }) := by
    simp [checkEntry, Entry.asks, hopen, hidle]
  have halive : (c.net.checkHop entry.resource.hop).1 = true := by
    simpa [Entry.isStale, hidle, hask] using hfresh
  exact ⟨hidle, by rw [hask, ← halive]⟩

/-- Using an entry leaves it under its key. -/
theorem find?_setEntry (hfind : c.find? key = some e) {new : Entry} (hopen : new.closed = false) :
    (c.setEntry e new).find? key = some e := by
  obtain ⟨slot, hlookup, hready, hentry⟩ := find?_eq_some_iff.1 hfind
  obtain ⟨old, hold, -⟩ := isOpen_eq_true_iff.1 hentry
  exact find?_eq_some_iff.2 ⟨slot, hlookup, hready,
    isOpen_eq_true_iff.2 ⟨new, entries_setEntry_self hold new, hopen⟩⟩

/-- The entry that a `get` has used is in the state that it then leaves. -/
theorem used_of_serves {s : Cache × Hand} (hs : Serves id op s c' key m e entry) :
    entry.closed = false ∧ c'.find? key = some e ∧ c'.net.now = m.net.now ∧
      c'.entries[e]? = some { entry with lastUse := m.net.now } ∧
        entry.isIdle m.net.now = false ∧ m.net.checkHop entry.resource.hop = (true, c'.net) := by
  have hopen : entry.closed = false := by
    obtain ⟨slot, -, -, hopen⟩ := find?_eq_some_iff.1 hs.found
    obtain ⟨entry', he, hopen⟩ := isOpen_eq_true_iff.1 hopen
    obtain rfl := Option.some.inj (he.symm.trans hs.entry_eq)
    exact hopen
  obtain ⟨hidle, halive⟩ := checkHop_of_fresh hopen hs.fresh
  obtain rfl := hs.used
  obtain ⟨net, hnet, hnow⟩ := m.checkEntry_eq entry
  rw [hnet] at halive ⊢
  exact ⟨hopen, find?_setEntry (c := { m with net }) hs.found hopen, hnow,
    entries_setEntry_self (c := { m with net }) hs.entry_eq _, hidle, halive⟩

/-- In every run of a cache, whenever a `get` returns a service, in that very step the service is
the one of the entry under the key, which is open and not being released, was used within its time
to live and has a living hop. -/
theorem served_of_result (ttl : Nat) (events : List Event) (ev : Event) (id : CallId)
    (service : ServiceId) (h : ((new ttl).run events).result? id = none)
    (h' : ((new ttl).run (events ++ [ev])).result? id = some (.service service)) :
    ∃ key e entry,
      Served ((new ttl).run events) ((new ttl).run (events ++ [ev])) id key e entry service := by
  have hc : ((new ttl).run events).Sound := (Sound.new ttl).run events
  have hacc := account_run ttl (events ++ [ev])
  have httl := ttl_run ttl (events ++ [ev])
  rw [run_append] at h' hacc httl ⊢
  generalize (new ttl).run events = c at *
  obtain ⟨key, x, m, e, entry, calls, hs, hservice, hx, hcall⟩ := serves_of_step hc h h'
  obtain ⟨hopen, hfound, hnow, hused, hidle, halive⟩ := used_of_serves hs
  change c.run [ev] = _ at hx
  generalize c.run [ev] = c' at *
  obtain rfl := hx
  replace hused : ({ x with calls } : Cache).entries[e]? =
    some { entry with lastUse := m.net.now } := hused
  refine ⟨key, e, entry, hcall, hfound, hservice, hopen, ?_, ?_,
    ⟨m, {}, hs.reached, hs.entry_eq, halive⟩, hnow.symm ▸ hused⟩
  · exact hacc.deedsOf_eq_nil (isClosed_eq_false hused hopen)
  · have hlt : ¬entry.ttl ≤ m.net.now - entry.lastUse := by simpa [Entry.isIdle] using hidle
    have hown := httl.2 e _ hused
    dsimp only at hown
    rw [httl.1, show ({ x with calls } : Cache).net.now = m.net.now from hnow]
    omega

/-- A caller that waited for somebody else's construction gets the entry that is then under the
key. -/
theorem served_after_waiting :
    ∃ key e entry,
      Served
        ((new 1000).run [.call (.get ⟨"k"⟩), .world oneSession, .call (.get ⟨"k"⟩),
          .built 0 (.resource ⟨0, .channel 0⟩)])
        ((new 1000).run ([.call (.get ⟨"k"⟩), .world oneSession, .call (.get ⟨"k"⟩),
          .built 0 (.resource ⟨0, .channel 0⟩)] ++ [.wake 1])) 1 key e entry 0 :=
  served_of_result 1000 _ (.wake 1) 1 0 (by decide) (by decide)

end Cache

end ConnectionBroker
