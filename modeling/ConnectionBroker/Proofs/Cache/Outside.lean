import ConnectionBroker.Proofs.Cache.Custody

/-!
# Slots outside the map

A request to close a key takes the slot of the key out of the map, whoever is busy with it
(`not_mem_of_closes`). A slot that is outside the map never gets back in : the rows that are added
to the map are of new slots (`Strides.renews`). And a slot that has got an outcome keeps it
(`kept_outcome`).
-/

namespace ConnectionBroker

namespace Cache

variable {id : CallId} {op : Operation} {c c' c'' : Cache} {h h' : Hand} {H : CallId → Hand}
  {key : Fingerprint} {slot : SlotId} {P : Call → Prop}

/-! ## The rows of the map -/

/-- What the rows of the map can become : no slot gets into the map but a new one. -/
structure Renews (c c' : Cache) : Prop where
  slots : c.slots.length ≤ c'.slots.length
  rows : ∀ row ∈ c'.current, row ∈ c.current ∨ c.slots.length ≤ row.2

namespace Renews

theorem of_rows (hslots : c'.slots.length = c.slots.length)
    (hrows : ∀ row ∈ c'.current, row ∈ c.current) : c.Renews c' :=
  ⟨Nat.le_of_eq hslots.symm, fun row hrow => .inl (hrows row hrow)⟩

theorem of_split {pre post : List (Fingerprint × SlotId)}
    (hrow : c.current = pre ++ (key, slot) :: post) (hslots : c'.slots.length = c.slots.length)
    (hcur : c'.current = pre ++ post) : c.Renews c' :=
  of_rows hslots fun _ hmem => (mem_split_iff hrow).2 (.inr (hcur ▸ hmem))

theorem trans (h : c.Renews c') (h' : c'.Renews c'') : c.Renews c'' :=
  ⟨Nat.le_trans h.slots h'.slots, fun row hrow =>
    (h'.rows row hrow).elim (h.rows row) fun hnew => .inr (Nat.le_trans h.slots hnew)⟩

/-- A slot that is outside the map stays there. -/
theorem not_mem (h : c.Renews c') (hlt : slot < c.slots.length) (hout : (key, slot) ∉ c.current) :
    (key, slot) ∉ c'.current := by
  intro hmem
  exact (h.rows _ hmem).elim hout fun hge => absurd hlt (Nat.not_lt.2 hge)

theorem move (hm : Move id op (c, h) (c', h')) : c.Renews c' := by
  cases hm with
  | round | claim | skip | promote | leave => exact of_rows rfl fun _ h => h
  | keep | touch =>
    refine of_rows (congrArg List.length (checkEntry_slots c _)) fun row hrow => ?_
    exact checkEntry_rows c _ ▸ hrow
  | evict hrow => exact of_split hrow (congrArg List.length (checkEntry_slots c _)) rfl
  | forget hrow | withdraw hrow => exact of_split hrow rfl rfl
  | @tell _ _ e rest hr hc =>
    obtain ⟨net, hnet⟩ := c.beginRelease_eq id e
    rw [hnet]
    exact of_rows rfl fun _ h => h
  | @finish _ _ e hr =>
    obtain ⟨net, hnet⟩ := c.endRelease_eq id e
    rw [hnet]
    exact of_rows rfl fun _ h => h
  | place hnone =>
    rw [slotFor_of_none hnone]
    refine ⟨by simp, fun row hrow => (List.mem_append.1 hrow).imp_right fun hnew => ?_⟩
    exact Nat.le_of_eq (congrArg Prod.snd (List.mem_singleton.1 hnew)).symm
  | build | queue | settle | fail | panic =>
    exact of_rows (length_slots_updateSlot ..) fun _ h => h

theorem moves {s s' : Cache × Hand} (hm : Moves id op s s') : s.1.Renews s'.1 := by
  induction hm with
  | refl => exact of_rows rfl fun _ h => h
  | tail _ hm ih => exact ih.trans (move hm)

end Renews

theorem Stride.renews (hs : Stride P c c') : c.Renews c' := by
  cases hs with
  | world | sweeper => exact .of_rows rfl fun _ h => h
  | reorder hrows => exact .of_rows rfl fun _ h => hrows.mem_iff.1 h
  | start hp => exact (Renews.moves hp.moves).trans (.of_rows rfl fun _ h => h)
  | resume hcall hlive hp => exact (Renews.moves hp.moves).trans (.of_rows rfl fun _ h => h)
  | @cancel id call hcall hlive hfit hP =>
    have hlen := (letGo_views id c call.activity).1
    obtain ⟨slots, hlet⟩ := letGo_eq id c call.activity
    rw [abort_of_call hcall hlive]
    rw [hlet] at hlen ⊢
    exact .of_rows hlen fun _ h => h

theorem Strides.renews (hs : Strides P c c') : c.Renews c' := by
  induction hs with
  | refl => exact .of_rows rfl fun _ h => h
  | tail _ hs ih => exact ih.trans hs.renews

/-- The outcome of a slot is final. -/
theorem kept_outcome (P : Call → Prop) (slot : SlotId) (o : Outcome) :
    Kept P fun c H => Guarded c H ∧ c.outcome? slot = some o where
  move {id op c c' h h' H} hm := by
    rintro ⟨hg, ho⟩
    refine ⟨hg.move hm, ?_⟩
    -- Whoever builds does so in a slot without an outcome.
    have hne : ∀ {k s}, h.building = some (k, s) → s ≠ slot := by
      rintro k s hb rfl
      rw [(hg.building id k s (by rwa [Function.update_self])).2.2] at ho
      cases ho
    have same : c'.slots = c.slots → c'.outcome? slot = some o := fun hslots => by
      rw [outcome?, hslots]
      exact ho
    cases hm with
    | round | forget | withdraw | claim | skip | promote | leave => exact same rfl
    | keep | touch | evict => exact same (checkEntry_slots c _)
    | @tell _ _ e rest hr hc =>
      obtain ⟨net, hnet⟩ := c.beginRelease_eq id e
      rw [hnet]
      exact ho
    | @finish _ _ e hr =>
      obtain ⟨net, hnet⟩ := c.endRelease_eq id e
      rw [hnet]
      exact ho
    | place hnone => rw [outcome?_slotFor hnone, ho]
    | build => exact (outcome?_setBuilder slot).trans ho
    | queue | panic => exact (outcome?_updateSlot (by intro; rfl) slot).trans ho
    | settle r hb => exact (outcome?_updateSlot_of_ne _ (hne hb)).trans ho
    | fail err hb => exact (outcome?_updateSlot_of_ne _ (hne hb)).trans ho
  cancel {c id call} hcall hfit hP h :=
    ⟨(kept_guarded P).cancel hcall hfit hP h.1,
      ((letGo_views id c call.activity).2.2 slot).trans h.2⟩
  frame hrows hslots hentries hj h :=
    ⟨(kept_guarded P).frame hrows hslots hentries hj h.1, by rw [outcome?, hslots]; exact h.2⟩

/-! ## Requests to close a key -/

theorem current_markClosed (c : Cache) (id : CallId) (e : EntryId) :
    (c.markClosed id e).2.current = c.current := by
  rcases c.markClosed_cases id e with ⟨entry, -, -, heq⟩ | ⟨-, heq⟩
  · rw [heq]
    rfl
  · rw [heq]

theorem current_beginRelease (c : Cache) (id : CallId) (e : EntryId) :
    (c.beginRelease id e).current = c.current := by
  obtain ⟨net, hnet⟩ := c.beginRelease_eq id e
  rw [hnet]

theorem current_drain (id : CallId) : ∀ (slots : List SlotId) (released : Nat) (c : Cache),
    (drain id slots released c).2.current = c.current
  | [], _, _ => rfl
  | slot :: rest, released, c => by
    unfold drain
    split
    · exact current_drain id rest released c
    · rename_i e _
      have hmark := c.current_markClosed id e
      split <;> rename_i heq <;> rw [heq] at hmark
      · exact (current_beginRelease _ id e).trans hmark
      · exact (current_drain id rest released _).trans hmark

theorem current_close (id : CallId) (key : Fingerprint) (c : Cache) :
    (c.close id key).2.current = (c.withdraw id key).current := by
  unfold close
  dsimp only
  split
  · rfl
  · rename_i e _
    have hmark := (c.withdraw id key).current_markClosed id e
    split <;> rename_i heq <;> rw [heq] at hmark
    · exact (current_beginRelease _ id e).trans hmark
    · exact hmark

/-- A request to close a key takes the key out of the map at once. -/
theorem not_mem_of_closes (hg : Guarded c H) (hop : op.Closes key) (slot : SlotId) :
    (key, slot) ∉ (c.call op).2.current := by
  cases op with
  | close key' =>
    obtain rfl : key = key' := hop
    have hcur : (c.call (.close key)).2.current = (c.withdraw c.calls.length key).current :=
      current_close _ key c
    rw [hcur]
    cases hl : c.current.lookup key with
    | none =>
      have hself : c.withdraw c.calls.length key = c := by simp [withdraw, hl]
      rw [hself]
      exact fun hmem => lookup_eq_none_iff.1 hl (List.mem_map_of_mem hmem)
    | some slot' =>
      obtain ⟨pre, post, hrow, hwithdraw⟩ := withdraw_of_lookup c.calls.length hl
      have hkeys := hg.keys
      rw [hrow, List.map_append, List.map_cons, List.nodup_middle, List.nodup_cons,
        ← List.map_append] at hkeys
      rw [hwithdraw]
      exact fun hmem => hkeys.1 (List.mem_map.2 ⟨(key, slot), hmem, rfl⟩)
  | closeAll =>
    have hcur : (c.call .closeAll).2.current = [] := current_drain _ _ 0 _
    rw [hcur]
    exact List.not_mem_nil
  | shutdown =>
    have hcur : (c.call .shutdown).2.current = [] := current_drain _ _ 0 _
    rw [hcur]
    exact List.not_mem_nil
  | get | touch | sweep => exact hop.elim

end Cache

end ConnectionBroker
