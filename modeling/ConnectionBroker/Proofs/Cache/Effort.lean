import ConnectionBroker.Proofs.Cache.Run

/-!
# What a stretch of a `get` begins

A `get` begins another round when the entry that it finds is closed or stale, and when the slot
where it built or waited has left the map meanwhile. Rounds of the first kind are counted down, and
`Activity.worth` is how many the activity with which a stretch ends may still begin. So the rounds
of a stretch and what it is worth afterwards never exceed what it was worth before, with one more if
the slot was gone (`Onward`). A factory call is the last thing in a stretch, and then the slot is
the one that the key has now.
-/

namespace ConnectionBroker

/-! ## Counting -/

/-- What a round is worth to a call : the rounds that it may still begin, the one it is in
included. -/
def Activity.worth : Activity → Nat
  | .getting _ left (.discarding _) => left + 1
  | .getting _ left _ => left
  | _ => 1

/-- A call that goes on has a round to be in. -/
def Activity.Afoot : Activity → Prop
  | .getting _ left _ => 1 ≤ left
  | _ => True

theorem Activity.Afoot.one_le_worth {a : Activity} (h : a.Afoot) : 1 ≤ a.worth := by
  unfold worth
  split
  · exact Nat.le_add_left 1 _
  · exact h
  · exact Nat.le_refl 1

/-- The slot of a factory call in progress. -/
def Activity.sites : Activity → List SlotId
  | .getting _ _ (.building slot) => [slot]
  | _ => []

/-- The deed begins a round or a factory call. -/
def Deed.counts : Deed → Bool
  | .round _ => true
  | .build _ => true
  | _ => false

/-- The slot that the factory is called for. -/
def Deed.built? : Deed → Option SlotId
  | .build slot => some slot
  | _ => none

namespace Cache

variable {id : CallId} {c c' c'' : Cache} {key : Fingerprint} {slot : SlotId} {e : EntryId}
  {left x y : Nat} {r : Activity × Cache} {a : Activity}

/-- How many rounds a call has begun for a key. -/
def roundsOf (c : Cache) (id : CallId) (key : Fingerprint) : Nat :=
  c.journal.count (id, .round key)

/-- The slots that a call has called its factory for, one for each factory call. -/
def builtIn (c : Cache) (id : CallId) : List SlotId :=
  (c.journal.filter (·.1 == id)).filterMap (·.2.built?)

/-- The rounds and the factory calls of a call are as many as before. -/
structure Idle (c c' : Cache) (id : CallId) (key : Fingerprint) : Prop where
  rounds : c'.roundsOf id key = c.roundsOf id key
  built : c'.builtIn id = c.builtIn id

namespace Idle

theorem refl (c : Cache) (id : CallId) (key : Fingerprint) : Idle c c id key :=
  ⟨rfl, rfl⟩

theorem trans (h : Idle c c' id key) (h' : Idle c' c'' id key) : Idle c c'' id key :=
  ⟨h'.rounds.trans h.rounds, h'.built.trans h.built⟩

theorem of_append {ds : List (CallId × Deed)} (hj : c'.journal = c.journal ++ ds)
    (hds : ∀ d ∈ ds, d.1 = id → d.2.counts = false) : Idle c c' id key := by
  constructor
  · have hnone : ds.count (id, .round key) = 0 :=
      List.count_eq_zero_of_not_mem fun hd => Bool.noConfusion (hds _ hd rfl)
    rw [roundsOf, hj, List.count_append, hnone, Nat.add_zero, roundsOf]
  · have hnone : (ds.filter (·.1 == id)).filterMap (·.2.built?) = [] := by
      refine List.filterMap_eq_nil_iff.2 fun d hd => ?_
      obtain ⟨hmem, hown⟩ := List.mem_filter.1 hd
      have hcounts := hds d hmem (beq_iff_eq.1 hown)
      obtain ⟨i, d⟩ := d
      cases d <;> first | rfl | cases hcounts
    rw [builtIn, hj, List.filter_append, List.filterMap_append, hnone, List.append_nil, builtIn]

theorem note {d : Deed} (hd : d.counts = false) : Idle c (c.note id d) id key :=
  .of_append rfl (by simp [hd])

theorem of_journal (hj : c'.journal = c.journal) : Idle c c' id key :=
  .of_append (hj.trans (List.append_nil _).symm) (by simp)

theorem checkEntry (c : Cache) (entry : Entry) : Idle c (c.checkEntry entry).2 id key := by
  obtain ⟨net, hnet, -⟩ := c.checkEntry_eq entry
  exact .of_journal (by rw [hnet])

theorem forget (c : Cache) (slot : SlotId) : Idle c (c.forget id key slot) id key := by
  unfold Cache.forget
  split
  · exact .of_append rfl (by simp [Deed.counts])
  · exact .refl c id key

theorem beginRelease (c : Cache) (e : EntryId) : Idle c (c.beginRelease id e) id key := by
  obtain ⟨net, hnet⟩ := c.beginRelease_eq id e
  exact .of_append (by rw [hnet]) (by simp [Deed.counts])

theorem endRelease (c : Cache) (e : EntryId) : Idle c (c.endRelease id e) id key := by
  obtain ⟨net, hnet⟩ := c.endRelease_eq id e
  exact .of_append (by rw [hnet]) (by simp [Deed.counts])

theorem slotFor (c : Cache) : Idle c (c.slotFor key).2 id key := by
  unfold Cache.slotFor
  split <;> exact .of_journal rfl

theorem claim (c : Cache) (entry new : Entry) :
    Idle c (((c.checkEntry entry).2.setEntry e new).note id (.claim e)) id key :=
  (checkEntry c entry).trans (.of_append rfl (by simp [Deed.counts]))

theorem access (c : Cache) (e : EntryId) : Idle c (c.access id e).2 id key := by
  rcases c.access_cases id e with ⟨entry, -, -, -, heq⟩ | ⟨entry, -, -, -, heq⟩ |
    ⟨-, heq | ⟨entry, -, heq⟩⟩ <;> rw [heq]
  · exact (checkEntry c entry).trans (.of_journal rfl)
  · exact claim c entry _
  · exact .refl c id key
  · exact checkEntry c entry

theorem tryExpire (c : Cache) (e : EntryId) : Idle c (c.tryExpire id e).2 id key := by
  rcases c.tryExpire_cases id e with ⟨entry, -, -, -, heq⟩ | heq | ⟨entry, -, heq⟩ <;> rw [heq]
  · exact claim c entry _
  · exact .refl c id key
  · exact checkEntry c entry

theorem markClosed (c : Cache) (e : EntryId) : Idle c (c.markClosed id e).2 id key := by
  rcases c.markClosed_cases id e with ⟨entry, -, -, heq⟩ | ⟨-, heq⟩ <;> rw [heq]
  · exact .of_append rfl (by simp [Deed.counts])
  · exact .refl c id key

/-- The induction is on the rows that the sweep has yet to look at. -/
theorem claimStale (id : CallId) (key : Fingerprint) :
    ∀ (rows : List (Fingerprint × SlotId)) (c : Cache), Idle c (claimStale id rows c).2.2 id key
  | [], c => .refl c id key
  | row :: rest, c => by
    unfold Cache.claimStale
    split
    · exact claimStale id key rest c
    · rename_i e _
      have hexpire : Idle c (c.tryExpire id e).2 id key := tryExpire c e
      split
      · rename_i c' heq
        rw [heq] at hexpire
        exact (hexpire.trans (note rfl)).trans (claimStale id key rest _)
      · rename_i c' heq
        rw [heq] at hexpire
        exact hexpire.trans (claimStale id key rest c')

theorem expire (c : Cache) : Idle c (c.expire id).2 id key :=
  (claimStale id key c.current c).trans (.of_journal rfl)

end Idle

/-- One if the slot is not the one that its key has now. -/
def gone (c : Cache) (key : Fingerprint) (slot : SlotId) : Nat :=
  if c.isCurrent key slot then 0 else 1

theorem gone_of_isCurrent (h : c.isCurrent key slot = true) : c.gone key slot = 0 :=
  if_pos h

/-- A slot that was its key's and is not any more is one more that is gone. -/
theorem gone_le {n : Nat}
    (h : c.isCurrent key slot = true → c'.isCurrent key slot = false → 1 ≤ n) :
    c'.gone key slot ≤ c.gone key slot + n := by
  unfold gone
  split
  · exact Nat.zero_le _
  · rename_i hcur'
    split
    · rename_i hcur
      have := h hcur (Bool.eq_false_iff.2 hcur')
      omega
    · exact Nat.le_add_right 1 n

/-! ## One stretch -/

/-- A stretch of a `get` that may begin so many rounds : what it does not begin is left to the
activity with which it ends, and a slot where it then is is its key's. -/
structure Onward (id : CallId) (key : Fingerprint) (c : Cache) (x : Nat) (r : Activity × Cache) :
    Prop where
  rounds : r.2.roundsOf id key + r.1.worth ≤ c.roundsOf id key + x
  built : r.2.builtIn id = c.builtIn id ++ r.1.sites
  current : ∀ slot, r.1.slot? = some slot → r.2.isCurrent key slot = true
  afoot : r.1.Afoot

namespace Onward

/-- What comes before a stretch and begins no round is nothing to it. -/
theorem of_idle (hi : Idle c c' id key) (ho : Onward id key c' x r) : Onward id key c x r :=
  ⟨hi.rounds ▸ ho.rounds, hi.built ▸ ho.built, ho.current, ho.afoot⟩

theorem mono (ho : Onward id key c x r) (hle : x ≤ y) : Onward id key c y r :=
  ⟨Nat.le_trans ho.rounds (Nat.add_le_add_left hle _), ho.built, ho.current, ho.afoot⟩

/-- A stretch that begins nothing, with what it is worth at hand. -/
theorem still (hi : Idle c c' id key) (hs : a.slot? = none) (hpos : a.Afoot)
    (hx : a.worth ≤ x) : Onward id key c x (a, c') where
  rounds := by rw [hi.rounds]; exact Nat.add_le_add_left hx _
  built := by
    have hsites : a.sites = [] := by
      unfold Activity.sites
      split
      · cases hs
      · rfl
    rw [hi.built, hsites, List.append_nil]
  current slot h := by rw [hs] at h; cases h
  afoot := hpos

theorem ended (hi : Idle c c' id key) (hx : 1 ≤ x) (res : Result) :
    Onward id key c x (.ended res, c') :=
  still hi rfl trivial hx

theorem sweepFirst {next : Cache → Activity × Cache} (hleft : 1 ≤ left)
    (hnext : ∀ c, Onward id key c left (next c)) (c : Cache) :
    Onward id key c (left + 1) (c.sweepFirst id key left next) := by
  have hround : ∀ {r}, Onward id key (c.note id (.round key)) left r →
      Onward id key c (left + 1) r := fun ho =>
    ⟨Nat.le_trans ho.rounds (by simp [roundsOf, note]; omega), by
      rw [ho.built]
      simp [builtIn, note, Deed.built?], ho.current, ho.afoot⟩
  refine hround ?_
  have hexpire : Idle _ ((c.note id (.round key)).expire id).2 id key := .expire _
  unfold Cache.sweepFirst
  split
  · rename_i c' heq
    rw [heq] at hexpire
    exact .of_idle hexpire (hnext c')
  · rename_i e rest c' heq
    rw [heq] at hexpire
    exact still (hexpire.trans (.beginRelease c' e)) rfl hleft (Nat.le_refl left)

/-- Using an entry either ends the stretch or goes on with a stale round. -/
theorem use {builtHere : Bool} {again : Cache → Activity × Cache} (hleft : 1 ≤ left)
    (hagain : ∀ c, Onward id key c left (again c)) (c : Cache) (slot : SlotId) (e : EntryId) :
    Onward id key c left (c.use id key slot e builtHere left again) := by
  have haccess : Idle c (c.access id e).2 id key := .access c e
  unfold Cache.use
  split
  · rename_i c' heq
    rw [heq] at haccess
    split
    · exact .ended haccess hleft _
    · exact .ended haccess hleft _
  · rename_i c' heq
    rw [heq] at haccess
    exact still ((haccess.trans (.forget c' slot)).trans (.beginRelease _ e)) rfl hleft
      (Nat.le_refl left)
  · rename_i c' heq
    rw [heq] at haccess
    exact .of_idle (haccess.trans (.forget c' slot)) (hagain _)

/-- The induction is on the stale rounds that are left. -/
theorem take (id : CallId) (key : Fingerprint) :
    ∀ (left : Nat) (c : Cache), 1 ≤ left → Onward id key c left (take id key left c)
  | 0, _, hleft => absurd hleft (by decide)
  | left + 1, c, hleft => by
    refine .of_idle (.slotFor c) ?_
    have hcur := isCurrent_slotFor c key
    unfold Cache.take
    generalize c.slotFor key = found at hcur ⊢
    obtain ⟨slot, c⟩ := found
    dsimp only at hcur ⊢
    split
    · refine use hleft (fun c => ?_) c slot _
      split
      · exact .ended (.refl c id key) (by omega) _
      · rename_i hne
        have hpos : 1 ≤ left := Nat.one_le_iff_ne_zero.2 hne
        exact sweepFirst hpos (fun c => take id key left c hpos) c
    · exact .ended (.forget c slot) hleft _
    · split
      · refine ⟨?_, ?_, ?_, hleft⟩
        · simp [roundsOf, note, setBuilder, updateSlot, Activity.worth]
        · simp [builtIn, note, setBuilder, updateSlot, Activity.sites, Deed.built?]
        · rintro s ⟨⟩
          exact hcur
      · refine ⟨Nat.le_refl _, by simp [builtIn, enqueue, updateSlot, Activity.sites], ?_, hleft⟩
        rintro s ⟨⟩
        exact hcur

theorem round (hleft : 1 ≤ left) (c : Cache) :
    Onward id key c (left + 1) (c.round id key left) :=
  sweepFirst hleft (fun c => take id key left c hleft) c

theorem staleRound (hleft : 1 ≤ left) (c : Cache) :
    Onward id key c left (c.staleRound id key left) := by
  unfold Cache.staleRound
  split
  · exact .ended (.refl c id key) hleft _
  · refine (round (by omega) c).mono (by omega)

/-- A slot that left the map meanwhile is a round that does not count. -/
theorem observe {builtHere : Bool} (hleft : 1 ≤ left) (slot : SlotId) (o : Outcome) (c : Cache) :
    Onward id key c (left + c.gone key slot) (c.observe id key slot builtHere left o) := by
  cases o with
  | failed err => exact .ended (.forget c slot) (by omega) _
  | ready e =>
    simp only [Cache.observe, gone]
    split
    · exact use hleft (staleRound hleft) c slot e
    · have hmark : Idle c (c.markClosed id e).2 id key := .markClosed c e
      split
      · rename_i c' heq
        rw [heq] at hmark
        exact still (hmark.trans (.beginRelease c' e)) rfl hleft (Nat.le_refl _)
      · rename_i c' heq
        rw [heq] at hmark
        exact .of_idle hmark (round hleft c')

/-- The release of an entry goes on. -/
theorem afterClose {a : Activity} (hleft : a.Afoot) (hlive : ∀ res, a ≠ .ended res)
    (hfit : a.Fits (.get key)) (hs : a.slot? = none) (c : Cache) :
    Onward id key c a.worth (afterClose id c a) := by
  cases a with
  | getting key' left phase =>
    obtain rfl : key' = key := hfit
    cases phase with
    | clearing e rest =>
      refine .of_idle (.endRelease c e) ?_
      cases rest with
      | nil => exact take id key' left _ hleft
      | cons e' rest => exact still (.beginRelease _ e') rfl hleft (Nat.le_refl _)
    | waiting slot => cases hs
    | building slot => cases hs
    | discarding e => exact .of_idle (.endRelease c e) (round hleft _)
    | evicting e builtHere =>
      refine .of_idle (.endRelease c e) ?_
      simp only [Cache.afterClose]
      split
      · exact .ended (.refl _ id key') hleft _
      · exact staleRound hleft _
  | dropping | sweeping | closing | draining => exact hfit.elim
  | ended res => exact absurd rfl (hlive res)

end Onward

/-! ## What a call may still begin -/

/-- One if the slot where a call builds or waits is gone. -/
def lost (c : Cache) (key : Fingerprint) (a : Activity) : Nat :=
  match a.slot? with
  | some slot => c.gone key slot
  | none => 0

/-- One if the factory may be called once more on account of the removals so far. -/
def owed (c : Cache) (key : Fingerprint) : Activity → Nat
  | .getting _ _ (.building slot) => c.gone key slot
  | .getting _ _ (.evicting _ true) => 0
  | .getting _ _ _ => 1
  | _ => 0

/-- A stretch leaves owing one factory call at most, the one that it begins included. -/
theorem Onward.owed_le (ho : Onward id key c x r) : r.1.sites.length + r.2.owed key r.1 ≤ 1 := by
  obtain ⟨a, c'⟩ := r
  cases a with
  | getting key' left phase =>
    cases phase with
    | building slot =>
      have hgone : c'.gone key slot = 0 := gone_of_isCurrent (ho.current slot rfl)
      simp [Activity.sites, owed, hgone]
    | evicting e builtHere => cases builtHere <;> simp [Activity.sites, owed]
    | _ => simp [Activity.sites, owed]
  | _ => simp [Activity.sites, owed]

/-- Whoever has built an entry itself gives up if it is stale at once. It owes another factory call
only if its slot is gone. -/
theorem owed_observe (hopen : c.isOpen e = true) (hleft : 1 ≤ left) :
    (c.observe id key slot true left (.ready e)).1.sites.length +
        (c.observe id key slot true left (.ready e)).2.owed key
          (c.observe id key slot true left (.ready e)).1 ≤ c.gone key slot := by
  have ho : Onward id key c (left + c.gone key slot) (c.observe id key slot true left (.ready e)) :=
    .observe hleft slot _ c
  cases hcur : c.isCurrent key slot with
  | false =>
    rw [show c.gone key slot = 1 by simp [gone, hcur]]
    exact ho.owed_le
  | true =>
    simp only [observe, hcur, if_true, Cache.use]
    rcases c.access_cases id e with ⟨entry, he, -, -, heq⟩ | ⟨entry, -, -, -, heq⟩ | ⟨hclosed, -⟩
    · rw [heq]
      dsimp only
      split <;> exact Nat.zero_le _
    · rw [heq]
      exact Nat.zero_le _
    · rw [hopen] at hclosed
      cases hclosed

theorem sites_eq_singleton (h : slot ∈ a.sites) : a.sites = [slot] := by
  unfold Activity.sites at h ⊢
  split at h
  · rw [List.mem_singleton.1 h]
  · cases h

/-- A factory call of a `get` is in progress. -/
theorem eq_building_of_sites {slots : List SlotId} (hfit : a.Fits (.get key))
    (h : a.sites = slot :: slots) : ∃ left, a = .getting key left (.building slot) := by
  unfold Activity.sites at h
  split at h
  · obtain rfl := (List.cons.inj h).1
    obtain rfl := hfit
    exact ⟨_, rfl⟩
  · cases h

end Cache

end ConnectionBroker
