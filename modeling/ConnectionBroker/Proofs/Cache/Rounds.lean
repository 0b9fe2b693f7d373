import ConnectionBroker.Proofs.Cache.Effort
import ConnectionBroker.Proofs.Cache.Elsewhere

/-!
# How often a call goes round

The rounds of a `get` are counted down, but for those after its slot has left the map. Then others
have taken the slot out, and a slot that is out never comes back, so each of these rounds is charged
to a removal of its own. The same goes for a factory call whose entry is of no use because the key
was closed meanwhile.

What a call may still begin is a potential of its activity (`Activity.worth` and `Cache.lost` for
the rounds, `Cache.owed` for the factory calls). A stretch of the call itself never raises the sum
of what was begun and the potential (`Bounded.resume`), and the steps of others raise it only by as
much as they remove (`Bounded.elsewhere`). `rounds_bounded` reads the bounds off that account.

A call that waits for the right to build keeps its place when the key is closed, and if the one that
builds panics or is cancelled it builds in a slot that is no longer the key's. That factory call is
charged to the removal during the wait (`Bounded.promote`).
-/

namespace ConnectionBroker

/-- A slot that others take out of the map while a call goes on. -/
structure Removal where
  /-- What the call is doing meanwhile. -/
  during : Activity
  slot : SlotId
  /-- It is taken out by a request to close its key. -/
  requested : Bool
  deriving DecidableEq, Repr

/-- The removal that a deed is. -/
def Deed.removal? (during : Activity) : Deed → Option Removal
  | .forget slot => some ⟨during, slot, false⟩
  | .withdraw _ slot => some ⟨during, slot, true⟩
  | _ => none

namespace Cache

variable {id : CallId} {c c' : Cache} {key : Fingerprint} {slot : SlotId} {left x : Nat}
  {r : Activity × Cache} {a : Activity} {rs : List Removal}

/-! ## What others take away -/

/-- The slots of a key that others take out of the map in a step, while the call goes on. -/
def removed (c c' : Cache) (id : CallId) (key : Fingerprint) : List Removal :=
  match c.activity? id with
  | none => []
  | some (.ended _) => []
  | some a =>
    (((c'.journal.drop c.journal.length).filter (·.1 != id)).filterMap (·.2.removal? a)).filter
      fun r => c'.slotKey? r.slot == some key

/-- The slots of a key that others take out of the map in a run, while the call goes on. -/
def removals (id : CallId) (key : Fingerprint) : Cache → List Event → List Removal
  | _, [] => []
  | c, ev :: rest => c.removed (c.step ev) id key ++ removals id key (c.step ev) rest

/-- A request took out the slot where the call waited or built, and the call's factory was called
for that slot. -/
def spoils (c : Cache) (id : CallId) (r : Removal) : Bool :=
  r.requested && r.during.slot? == some r.slot && (c.builtIn id).contains r.slot

/-- A row that others took out. -/
theorem removed_of_not_mem (he : Elsewhere c c' id) (ha : c.activity? id = some a)
    (hlive : ∀ res, a ≠ .ended res) (hrow : (key, slot) ∈ c.current)
    (hout : (key, slot) ∉ c'.current) (hkey : c'.slotKey? slot = some key) :
    ∃ r ∈ c.removed c' id key, r.during = a ∧ r.slot = slot ∧
      (r.requested = true ∨ (c'.outcome? slot).isSome) := by
  obtain ⟨ds, hr, hds⟩ := he.deeds
  obtain ⟨d, hd, hgone⟩ := (hr.rows key slot hrow).resolve_left hout
  have hmem : d ∈ (c'.journal.drop c.journal.length).filter (·.1 != id) := by
    rw [hr.journal, List.drop_left]
    exact List.mem_filter.2 ⟨hd, by simpa using hds d hd⟩
  have hin : ∀ r : Removal, d.2.removal? a = some r → r.slot = slot → r ∈ c.removed c' id key := by
    intro r hsome hslot
    unfold removed
    rw [ha]
    split
    · contradiction
    · rename_i res heq
      exact absurd (Option.some.inj heq) (hlive res)
    · rename_i a' _ heq
      obtain rfl := Option.some.inj heq
      exact List.mem_filter.2 ⟨List.mem_filterMap.2 ⟨d, hmem, hsome⟩, by simp [hslot, hkey]⟩
  rcases hgone with hgone | ⟨hgone, ho⟩
  · exact ⟨⟨a, slot, true⟩, hin _ (by rw [hgone]; rfl) rfl, rfl, rfl, .inl rfl⟩
  · exact ⟨⟨a, slot, false⟩, hin _ (by rw [hgone]; rfl) rfl, rfl, rfl, .inr ho⟩

/-- The slot where a `get` waits or builds is one of its key. -/
theorem Sound.slotKey?_of_slot? {call : Call} (hc : c.Sound) (hcall : c.calls[id]? = some call)
    (hop : call.operation = .get key) (hs : call.activity.slot? = some slot) :
    c.slotKey? slot = some key := by
  have hfit := hc.attuned.fits call (List.mem_of_getElem? hcall)
  have hhand := hands_of_call hcall
  rw [hop] at hfit
  unfold Activity.slot? at hs
  split at hs
  · rename_i key' left s hact
    obtain rfl := Option.some.inj hs
    rw [hact] at hfit hhand
    obtain rfl : key' = key := hfit
    exact (hc.guarded.building id key' s (by rw [hhand]; rfl)).1
  · rename_i key' left s hact
    obtain rfl := Option.some.inj hs
    rw [hact] at hfit hhand
    obtain rfl : key' = key := hfit
    exact hc.guarded.waiting id key' s (by rw [hhand]; rfl)
  · cases hs

/-- What holds of more removals, one of them included, is counted once more. -/
theorem countP_lt {p q : Removal → Bool} (hmono : ∀ r ∈ rs, p r = true → q r = true)
    {r : Removal} (hr : r ∈ rs) (hp : p r = false) (hq : q r = true) :
    rs.countP p < rs.countP q := by
  obtain ⟨before, after, rfl⟩ := List.append_of_mem hr
  have hbefore : before.countP p ≤ before.countP q :=
    List.countP_mono_left fun r hr => hmono r (List.mem_append_left _ hr)
  have hafter : after.countP p ≤ after.countP q :=
    List.countP_mono_left fun r hr =>
      hmono r (List.mem_append_right _ (List.mem_cons_of_mem _ hr))
  rw [List.countP_append, List.countP_append, List.countP_cons_of_neg (by simp [hp]),
    List.countP_cons_of_pos hq]
  omega

/-- A removal that has spoiled a factory call has spoiled it for good. -/
theorem spoils_mono {slots : List SlotId} (hbuilt : c'.builtIn id = c.builtIn id ++ slots)
    (r : Removal) (h : c.spoils id r = true) : c'.spoils id r = true := by
  simp only [spoils, hbuilt, Bool.and_eq_true, List.contains_iff_mem] at h ⊢
  exact ⟨h.1, List.mem_append_left _ h.2⟩

/-! ## The account of a call -/

/-- The account of a `get` in progress : what it has begun and may still begin is covered by what
it was given and by the removals so far. -/
structure Bounded (c : Cache) (id : CallId) (key : Fingerprint) (a : Activity)
    (rs : List Removal) : Prop where
  call : ∃ call, c.calls[id]? = some call ∧ call.operation = .get key ∧ call.activity = a
  afoot : a.Afoot
  rounds : c.roundsOf id key + a.worth + c.lost key a ≤ 4 + rs.length
  builds : (c.builtIn id).length + c.owed key a ≤ 1 + rs.countP (c.spoils id)
  /-- A slot without an outcome that left the map was taken out on request, and that was noted. -/
  spoiled : ∀ slot, a.slot? = some slot → c.isCurrent key slot = false → c.outcome? slot = none →
    ∃ r ∈ rs, r.requested = true ∧ r.during.slot? = some slot ∧ r.slot = slot
  /-- The factory calls but the one in progress have an outcome. -/
  past : ∀ slot ∈ c.builtIn id, a.sites = [slot] ∨ (c.outcome? slot).isSome ∨
    ∃ res, a = .ended res
  site : ∀ slot, a.sites = [slot] → slot ∈ c.builtIn id

namespace Bounded

theorem activity? (hb : Bounded c id key a rs) : c.activity? id = some a := by
  obtain ⟨call, hcall, -, hact⟩ := hb.call
  exact activity?_eq_some_iff.2 ⟨call, hcall, hact⟩

theorem fits (hb : Bounded c id key a rs) (hc : c.Sound) : a.Fits (.get key) := by
  obtain ⟨call, hcall, hop, rfl⟩ := hb.call
  exact hop ▸ hc.attuned.fits call (List.mem_of_getElem? hcall)

theorem append (hb : Bounded c id key a rs) (more : List Removal) :
    Bounded c id key a (rs ++ more) where
  call := hb.call
  afoot := hb.afoot
  rounds := Nat.le_trans hb.rounds (by simp)
  builds := Nat.le_trans hb.builds (by simp)
  spoiled slot hs hcur ho := by
    obtain ⟨r, hr, h⟩ := hb.spoiled slot hs hcur ho
    exact ⟨r, List.mem_append_left _ hr, h⟩
  past := hb.past
  site := hb.site

/-- What a call loses, others have taken out. -/
theorem removed_of_lost (hb : Bounded c id key a rs) (hc' : c'.Sound) (he : Elsewhere c c' id)
    {slot : SlotId} (hs : a.slot? = some slot) (hcur : c.isCurrent key slot = true)
    (hcur' : c'.isCurrent key slot = false) : ∃ r ∈ c.removed c' id key,
      r.during = a ∧ r.slot = slot ∧ (r.requested = true ∨ (c'.outcome? slot).isSome) := by
  obtain ⟨call, hcall, hop, hact⟩ := hb.call
  refine removed_of_not_mem he hb.activity? ?_ (mem_of_isCurrent hcur) (fun hmem => ?_)
    (hc'.slotKey?_of_slot? (he.call.trans hcall) hop (hact ▸ hs))
  · rintro res rfl
    cases hs
  · rw [hc'.guarded.isCurrent_of_mem hmem] at hcur'
    cases hcur'

/-- The round that a call may lose to others is one that they have taken a slot for. -/
theorem lost_elsewhere (hb : Bounded c id key a rs) (hc' : c'.Sound) (he : Elsewhere c c' id) :
    c'.lost key a ≤ c.lost key a + (c.removed c' id key).length := by
  unfold lost
  split
  · rename_i slot hs
    refine gone_le fun hcur hcur' => ?_
    obtain ⟨r, hr, -⟩ := hb.removed_of_lost hc' he hs hcur hcur'
    exact List.length_pos_of_mem hr
  · exact Nat.zero_le _

/-- The factory call that is in vain is one whose slot was taken out on request. -/
theorem owed_elsewhere (hb : Bounded c id key a rs) (hc : c.Sound) (hc' : c'.Sound)
    (he : Elsewhere c c' id) :
    c'.owed key a ≤ c.owed key a + (c.removed c' id key).countP (c.spoils id) := by
  cases hsite : a.sites with
  | nil =>
    have hsame : c'.owed key a = c.owed key a := by
      unfold owed
      split <;> first | rfl | cases hsite
    omega
  | cons slot rest =>
    obtain ⟨left, rfl⟩ := eq_building_of_sites (hb.fits hc) hsite
    obtain ⟨call, hcall, -, hact⟩ := hb.call
    have ho : c'.outcome? slot = none :=
      (hc'.guarded.building id key slot
        (by rw [hands_of_call (he.call.trans hcall), hact]; rfl)).2.2
    refine gone_le fun hcur hcur' => List.countP_pos_iff.2 ?_
    obtain ⟨r, hr, hduring, hslot, hwhy⟩ := hb.removed_of_lost hc' he rfl hcur hcur'
    refine ⟨r, hr, ?_⟩
    have hrequested : r.requested = true := by simpa [ho] using hwhy
    have hsited : slot ∈ c.builtIn id := hb.site slot rfl
    simp [spoils, hrequested, hduring, hslot, Activity.slot?, hsited]

/-- Others do what they do. -/
theorem elsewhere (hb : Bounded c id key a rs) (hc : c.Sound) (hc' : c'.Sound)
    (he : Elsewhere c c' id) : Bounded c' id key a (rs ++ c.removed c' id key) := by
  obtain ⟨ds, hr, hds⟩ := he.deeds
  have hidle : Idle c c' id key := .of_append hr.journal fun d hd hid => absurd hid (hds d hd)
  have hspoils : c'.spoils id = c.spoils id := by
    funext r
    rw [spoils, hidle.built, spoils]
  obtain ⟨call, hcall, hop, hact⟩ := hb.call
  refine ⟨⟨call, he.call.trans hcall, hop, hact⟩, hb.afoot, ?_, ?_, fun slot hs hcur' ho => ?_,
    fun slot hslot => ?_, fun slot hs => hidle.built ▸ hb.site slot hs⟩
  · have hlost := hb.lost_elsewhere hc' he
    have := hb.rounds
    rw [hidle.rounds, List.length_append]
    omega
  · have howed := hb.owed_elsewhere hc hc' he
    have := hb.builds
    rw [hidle.built, List.countP_append, hspoils]
    omega
  · cases hcur : c.isCurrent key slot with
    | true =>
      obtain ⟨r, hr, hduring, hslot, hwhy⟩ := hb.removed_of_lost hc' he hs hcur hcur'
      rw [ho] at hwhy
      refine ⟨r, List.mem_append_right _ hr, ?_, hduring ▸ hs, hslot⟩
      simpa using hwhy
    | false =>
      have ho' : c.outcome? slot = none := by
        by_contra hne
        have hsome := hr.outcomes slot (Option.isSome_iff_ne_none.2 hne)
        rw [ho] at hsome
        cases hsome
      obtain ⟨r, hr, h⟩ := hb.spoiled slot hs hcur ho'
      exact ⟨r, List.mem_append_left _ hr, h⟩
  · rw [hidle.built] at hslot
    exact (hb.past slot hslot).imp_right (Or.imp_left (hr.outcomes slot))

/-- The account after a stretch, from what was begun and owed before it. -/
theorem of_onward {call : Call} (ho : Onward id key c x r) (hj : c'.journal = r.2.journal)
    (hcur : c'.current = r.2.current) (hslots : c'.slots = r.2.slots)
    (hcall : c'.calls[id]? = some call) (hop : call.operation = .get key)
    (hact : call.activity = r.1) (hrounds : c.roundsOf id key + x ≤ 4 + rs.length)
    (hbuilds : (c.builtIn id).length + (r.1.sites.length + r.2.owed key r.1) ≤
      1 + rs.countP (c.spoils id))
    (hpast : ∀ slot ∈ c.builtIn id, (r.2.outcome? slot).isSome ∨ ∃ res, r.1 = .ended res) :
    Bounded c' id key r.1 rs := by
  have hcurrent : ∀ slot, c'.isCurrent key slot = r.2.isCurrent key slot := fun slot => by
    rw [isCurrent, hcur, isCurrent]
  have hgone : ∀ slot, c'.gone key slot = r.2.gone key slot := fun slot => by
    rw [gone, hcurrent, gone]
  have hbuilt : c'.builtIn id = c.builtIn id ++ r.1.sites := by
    rw [builtIn, hj]
    exact ho.built
  have hlost : c'.lost key r.1 = 0 := by
    unfold lost
    split
    · rename_i slot hs
      rw [hgone, gone_of_isCurrent (ho.current slot hs)]
    · rfl
  refine ⟨⟨call, hcall, hop, hact⟩, ho.afoot, ?_, ?_, fun slot hs hout => ?_,
    fun slot hslot => ?_, fun slot hs => ?_⟩
  · have hstretch : c'.roundsOf id key + r.1.worth ≤ c.roundsOf id key + x := by
      rw [roundsOf, hj]
      exact ho.rounds
    omega
  · have hmono : rs.countP (c.spoils id) ≤ rs.countP (c'.spoils id) :=
      List.countP_mono_left fun x _ => spoils_mono hbuilt x
    have howed : c'.owed key r.1 = r.2.owed key r.1 := by
      unfold owed
      split <;> first | exact hgone _ | rfl
    rw [hbuilt, howed, List.length_append]
    omega
  · rw [hcurrent, ho.current slot hs] at hout
    cases hout
  · rw [hbuilt] at hslot
    rcases List.mem_append.1 hslot with hslot | hslot
    · rw [outcome?, hslots]
      exact .inr (hpast slot hslot)
    · exact .inl (sites_eq_singleton hslot)
  · rw [hbuilt, hs]
    exact List.mem_append_right _ (List.mem_singleton_self slot)

/-- The call goes on for a stretch. -/
theorem resume (hb : Bounded c id key a rs) (hlive : ∀ res, a ≠ .ended res)
    (ho : Onward id key c (a.worth + c.lost key a) r) (hcalls : r.2.calls = c.calls)
    (hpays : r.1.sites.length + r.2.owed key r.1 ≤ c.owed key a)
    (hpast : ∀ slot, a.sites = [slot] ∨ (c.outcome? slot).isSome →
      (r.2.outcome? slot).isSome ∨ ∃ res, r.1 = .ended res) :
    Bounded (r.2.setActivity id r.1) id key r.1 rs := by
  obtain ⟨call, hcall, hop, hact⟩ := hb.call
  have hcall' : (r.2.setActivity id r.1).calls[id]? = some { call with activity := r.1 } := by
    simp [setActivity, hcalls, hcall]
  refine .of_onward ho rfl rfl rfl hcall' hop rfl ?_
    (Nat.le_trans (Nat.add_le_add_left hpays _) hb.builds) fun slot hslot => ?_
  · have := hb.rounds
    omega
  · refine hpast slot ((hb.past slot hslot).imp_right fun h => h.resolve_right ?_)
    rintro ⟨res, h⟩
    exact hlive res h

/-- The call ends. -/
theorem ends (hb : Bounded c id key a rs) (hlive : ∀ res, a ≠ .ended res)
    (hi : Idle c c' id key) (hcalls : c'.calls = c.calls) (res : Result) :
    Bounded (c'.setActivity id (.ended res)) id key (.ended res) rs := by
  have ho : Onward id key c (a.worth + c.lost key a) (.ended res, c') :=
    .ended hi (Nat.le_add_right_of_le hb.afoot.one_le_worth) res
  exact hb.resume hlive ho hcalls (Nat.zero_le _) fun _ _ => .inr ⟨res, rfl⟩

/-- The call is cancelled. -/
theorem abort (hb : Bounded c id key a rs) (hlive : ∀ res, a ≠ .ended res) :
    Bounded (c.abort id) id key (.ended .aborted) rs := by
  obtain ⟨call, hcall, hop, hact⟩ := hb.call
  obtain ⟨slots, hlet⟩ := letGo_eq id c call.activity
  rw [abort_of_call hcall (hact ▸ hlive), hlet]
  have hi : Idle c (({ c with slots }).abandon id
      (call.activity.releasing?.toList ++ call.activity.claimed)) id key := by
    refine .of_append rfl fun d hd _ => ?_
    obtain ⟨e, -, rfl⟩ := List.mem_map.1 hd
    rfl
  exact hb.ends hlive hi rfl .aborted

/-- What is asked of a stretch that comes after a wait : the factory calls that it leaves owing
were owed before, and the factory call that has ended has left an outcome. -/
theorem stretch (hb : Bounded c id key a rs) (hlive : ∀ res, a ≠ .ended res)
    (ho : Onward id key c' (a.worth + c.lost key a) r) (hi : Idle c c' id key)
    (hm : ∃ h h', Moves id (.get key) (c, h) (r.2, h'))
    (hpays : r.1.sites.length + r.2.owed key r.1 ≤ c.owed key a)
    (hpast : ∀ slot, a.sites = [slot] → (r.2.outcome? slot).isSome) :
    Bounded (r.2.setActivity id r.1) id key r.1 rs := by
  obtain ⟨h, h', hm⟩ := hm
  obtain ⟨ds, hr⟩ := Registers.moves hm
  exact hb.resume hlive (.of_idle hi ho) (moves_frame hm).1 hpays fun slot hslot =>
    .inl (hslot.elim (hpast slot) (hr.outcomes slot))

/-- The service that the call has told to close is closed. -/
theorem serviceClosed (hb : Bounded c id key a rs) (hc : c.Sound) (hlive : ∀ res, a ≠ .ended res) :
    ∃ a', Bounded (c.serviceClosed id) id key a' rs := by
  have hfit := hb.fits hc
  have hstep : c.serviceClosed id =
      (afterClose id c a).2.setActivity id (afterClose id c a).1 := by
    simp [Cache.serviceClosed, hb.activity?]
  rw [hstep]
  cases hs : a.slot? with
  | some slot =>
    have hstill : afterClose id c a = (a, c) := by
      unfold Activity.slot? at hs
      split at hs <;> first | rfl | cases hs
    rw [hstill, setActivity_self hb.activity?]
    exact ⟨a, hb⟩
  | none =>
    have hlost : c.lost key a = 0 := by simp [lost, hs]
    have ho : Onward id key c a.worth (afterClose id c a) :=
      .afterClose hb.afoot hlive hfit hs c
    refine ⟨_, hb.stretch hlive (by rwa [hlost]) (.refl c id key)
      ⟨_, _, (performs_afterClose hfit hlive c).moves⟩ ?_ fun slot hsite => ?_⟩
    · cases a with
      | getting key' left phase =>
        cases phase with
        | evicting e builtHere =>
          cases builtHere with
          | true => exact Nat.le_refl 0
          | false => exact ho.owed_le
        | waiting | building => cases hs
        | clearing | discarding => exact ho.owed_le
      | dropping | sweeping | closing | draining => exact hfit.elim
      | ended res => exact absurd rfl (hlive res)
    · obtain ⟨left, rfl⟩ := eq_building_of_sites hfit hsite
      cases hs

/-- The factory has built the service, and the call looks at it. -/
theorem built_resource (hb : Bounded c id key (.getting key left (.building slot)) rs)
    (hc : c.Sound) (res : Resource) : ∃ a', Bounded (c.built id (.resource res)) id key a' rs := by
  have hlt : slot < c.slots.length := hc.lt_of_building hb.activity?
  obtain ⟨c₁, hc₁⟩ : ∃ c₁ : Cache, c₁ = { c with
    entries := c.entries ++ [Entry.fresh key res c.net.now c.ttl] }.conclude slot
      (.ready c.entries.length) := ⟨_, rfl⟩
  have hstep : c.built id (.resource res) =
      (c₁.observe id key slot true left (.ready c.entries.length)).2.setActivity id
        (c₁.observe id key slot true left (.ready c.entries.length)).1 := by
    simp [Cache.built, hb.activity?, hc₁]
  have hgone : c₁.gone key slot = c.gone key slot := by rw [hc₁]; rfl
  have hopen : c₁.isOpen c.entries.length = true := by
    rw [hc₁]
    exact isOpen_eq_true_iff.2 ⟨_, List.getElem?_concat_length, rfl⟩
  have hout : c₁.outcome? slot = some (.ready c.entries.length) := by
    rw [hc₁]
    exact outcome?_conclude_self hlt
  have ho : Onward id key c₁ (left + c.gone key slot)
      (c₁.observe id key slot true left (.ready c.entries.length)) :=
    hgone ▸ .observe hb.afoot slot _ c₁
  have hresumes : Resumes id (.get key) (c, _)
      (c₁.observe id key slot true left (.ready c.entries.length)) :=
    hc₁ ▸ resumes_settle hlt
  have hconcluded : Performs id (.get key) (c₁, _)
      (c₁.observe id key slot true left (.ready c.entries.length)) := performs_concluded hout
  refine ⟨_, hstep ▸ hb.stretch (by simp) ho (.of_journal (by rw [hc₁]; rfl)) ⟨_, _, hresumes.moves⟩
    (Nat.le_trans (owed_observe hopen hb.afoot) (Nat.le_of_eq hgone)) fun s hs => ?_⟩
  obtain rfl : slot = s := (List.cons.inj hs).1
  obtain ⟨ds, hr⟩ := Registers.moves hconcluded.moves
  exact hr.outcomes slot (by simp [hout])

/-- The factory call of the call has ended. -/
theorem built (hb : Bounded c id key a rs) (hc : c.Sound) (hlive : ∀ res, a ≠ .ended res)
    (b : Built) : ∃ a', Bounded (c.built id b) id key a' rs := by
  cases hsite : a.sites with
  | nil =>
    have hstill : c.built id b = c := by
      unfold Cache.built
      split
      · rename_i key' left slot ha
        obtain rfl := Option.some.inj (hb.activity?.symm.trans ha)
        cases hsite
      · rfl
    exact ⟨a, hstill.symm ▸ hb⟩
  | cons slot rest =>
    obtain ⟨left, rfl⟩ := eq_building_of_sites (hb.fits hc) hsite
    cases b with
    | panicked =>
      have hstep : c.built id .panicked = (c.passOn slot).setActivity id (.ended .panicked) := by
        simp [Cache.built, hb.activity?]
      have hi : Idle c (c.passOn slot) id key := .of_journal rfl
      exact ⟨_, hstep ▸ hb.ends hlive hi rfl .panicked⟩
    | failed err =>
      have hstep : c.built id (.failed err) =
          ((c.conclude slot (.failed err)).forget id key slot).setActivity id
            (.ended (.failed err)) := by
        simp [Cache.built, hb.activity?, observe]
      have hi : Idle c (c.conclude slot (.failed err)) id key := .of_journal rfl
      exact ⟨_, hstep ▸ hb.ends hlive (hi.trans (.forget _ slot)) (calls_forget _ id key slot)
        (.failed err)⟩
    | resource res => exact hb.built_resource hc res

/-- A call that waited has called no factory in its slot yet. -/
theorem not_mem_builtIn (hb : Bounded c id key (.getting key left (.waiting slot)) rs)
    (hout : c.outcome? slot = none) : slot ∉ c.builtIn id := by
  intro hmem
  rcases hb.past slot hmem with h | h | ⟨res, h⟩
  · cases h
  · rw [hout] at h
    cases h
  · cases h

/-- If the slot in which a call is to build is gone, a request took it out, and that counts from
now on. -/
theorem spoils_promote (hb : Bounded c id key (.getting key left (.waiting slot)) rs)
    (hout : c.outcome? slot = none) (hbuilt : c'.builtIn id = c.builtIn id ++ [slot]) :
    rs.countP (c.spoils id) + c.gone key slot ≤ rs.countP (c'.spoils id) := by
  cases hcur : c.isCurrent key slot with
  | true =>
    rw [gone_of_isCurrent hcur, Nat.add_zero]
    exact List.countP_mono_left fun r _ => spoils_mono hbuilt r
  | false =>
    obtain ⟨r, hr, hrequested, hduring, hslot⟩ := hb.spoiled slot rfl hcur hout
    have hfresh := hb.not_mem_builtIn hout
    have hgone : c.gone key slot = 1 := by simp [gone, hcur]
    rw [hgone]
    refine countP_lt (fun r _ => spoils_mono hbuilt r) hr ?_ ?_
    · simp [spoils, hslot, hfresh]
    · simp [spoils, hrequested, hduring, hslot, hbuilt]

/-- The right to build was passed on to a call that waited. -/
theorem promote (hb : Bounded c id key (.getting key left (.waiting slot)) rs)
    (hout : c.outcome? slot = none) :
    Bounded ((c.note id (.build slot)).setActivity id (.getting key left (.building slot))) id key
      (.getting key left (.building slot)) rs := by
  obtain ⟨call, hcall, hop, hact⟩ := hb.call
  have hbuilt : ((c.note id (.build slot)).setActivity id
      (.getting key left (.building slot))).builtIn id = c.builtIn id ++ [slot] := by
    simp [builtIn, note, setActivity, Deed.built?]
  have hspoiled := hb.spoils_promote hout hbuilt
  refine ⟨⟨{ call with activity := .getting key left (.building slot) }, ?_, hop, rfl⟩, hb.afoot,
    ?_, ?_, fun s hs hcur ho => hb.spoiled s hs hcur ho, fun s hs => ?_, fun s hs => ?_⟩
  · simp [setActivity, note, hcall]
  · have hrounds : ((c.note id (.build slot)).setActivity id
        (.getting key left (.building slot))).roundsOf id key = c.roundsOf id key := by
      simp [roundsOf, note, setActivity]
    rw [hrounds]
    exact hb.rounds
  · have hstart : (c.builtIn id).length + 1 ≤ 1 + rs.countP (c.spoils id) := hb.builds
    have howed : ((c.note id (.build slot)).setActivity id
        (.getting key left (.building slot))).owed key (.getting key left (.building slot)) =
          c.gone key slot := rfl
    rw [hbuilt, howed, List.length_append, List.length_singleton]
    omega
  · rw [hbuilt] at hs
    rcases List.mem_append.1 hs with hs | hs
    · refine (hb.past s hs).elim (fun h => ?_) fun h => .inr (h.imp_right ?_)
      · cases h
      · rintro ⟨res, h⟩
        cases h
    · exact .inl (by rw [List.mem_singleton.1 hs]; rfl)
  · obtain rfl : slot = s := (List.cons.inj hs).1
    rw [hbuilt]
    exact List.mem_append_right _ (List.mem_singleton_self slot)

/-- The call looks at its slot again. -/
theorem wake (hb : Bounded c id key a rs) (hc : c.Sound) (hlive : ∀ res, a ≠ .ended res) :
    ∃ a', Bounded (c.wake id) id key a' rs := by
  have hfit := hb.fits hc
  unfold Cache.wake
  split
  · rename_i key' left slot ha
    obtain rfl := Option.some.inj (hb.activity?.symm.trans ha)
    obtain rfl : key' = key := hfit
    split
    · rename_i o ho
      have honward : Onward id key' c (left + c.gone key' slot)
          (c.observe id key' slot false left o) := .observe hb.afoot slot o c
      have hleave : Performs id (.get key') (c, _) (c.observe id key' slot false left o) :=
        performs_leave ho
      exact ⟨_, hb.stretch hlive honward (.refl c id key') ⟨_, _, hleave.moves⟩ honward.owed_le
        fun s hs => by cases hs⟩
    · rename_i hout
      split
      · exact ⟨_, hb.promote hout⟩
      · exact ⟨_, hb⟩
  · exact ⟨a, hb⟩

/-- Every step keeps the account, with what others take away in it. -/
theorem step (hb : Bounded c id key a rs) (hc : c.Sound) (ev : Event) :
    ∃ a', Bounded (c.step ev) id key a' (rs ++ c.removed (c.step ev) id key) := by
  have hc' : (c.step ev).Sound := hc.run [ev]
  obtain ⟨call, hcall, hop, hact⟩ := hb.call
  by_cases hev : ev.subject? = some id
  · suffices h : ∃ a', Bounded (c.step ev) id key a' rs from
      h.imp fun a' hb' => hb'.append _
    by_cases hlive : ∀ res, a ≠ .ended res
    · cases ev with
      | serviceClosed i =>
        obtain rfl := Option.some.inj hev
        exact hb.serviceClosed hc hlive
      | built i b =>
        obtain rfl := Option.some.inj hev
        exact hb.built hc hlive b
      | wake i =>
        obtain rfl := Option.some.inj hev
        exact hb.wake hc hlive
      | abort i =>
        obtain rfl := Option.some.inj hev
        exact ⟨_, hb.abort hlive⟩
      | _ => cases hev
    · obtain ⟨res, rfl⟩ := not_forall_not.1 hlive
      exact ⟨_, (step_of_ended hb.activity? hev).symm ▸ hb⟩
  · have hother : Elsewhere c (c.step ev) id :=
      elsewhere_step hc hcall (by rw [hop]; exact Operation.noConfusion) hev
    exact ⟨a, hb.elsewhere hc hc' hother⟩

/-- A run keeps the account. -/
theorem run (hb : Bounded c id key a rs) (hc : c.Sound) (events : List Event) :
    ∃ a', Bounded (c.run events) id key a' (rs ++ removals id key c events) := by
  induction events generalizing c a rs with
  | nil => exact ⟨a, by rwa [removals, List.append_nil]⟩
  | cons ev rest ih =>
    obtain ⟨a', hb'⟩ := hb.step hc ev
    obtain ⟨a'', hb''⟩ := ih hb' (hc.run [ev])
    exact ⟨a'', by rwa [removals, ← List.append_assoc]⟩

/-- The account of a call that has just begun. -/
theorem start (hc : c.Sound) (key : Fingerprint) :
    ∃ a, Bounded (c.step (.call (.get key))) c.calls.length key a [] := by
  have ho : Onward c.calls.length key c (maxStaleRounds + 1)
      (c.round c.calls.length key maxStaleRounds) := .round (by decide) c
  have hcalls : (c.round c.calls.length key maxStaleRounds).2.calls = c.calls :=
    (moves_frame (performs_round maxStaleRounds c).moves).1
  -- Nobody has done anything in the name of the next call.
  have hnew : ∀ d, (c.calls.length, d) ∉ c.journal := by
    intro d hd
    obtain ⟨call, hcall, -⟩ := hc.accounted _ d hd
    simp at hcall
  have hrounds : c.roundsOf c.calls.length key = 0 := List.count_eq_zero_of_not_mem (hnew _)
  have hbuilt : c.builtIn c.calls.length = [] := by
    have hnone : c.journal.filter (·.1 == c.calls.length) = [] := by
      refine List.filter_eq_nil_iff.2 fun d hd hown => ?_
      exact hnew d.2 (by rwa [← beq_iff_eq.1 hown])
    rw [builtIn, hnone, List.filterMap_nil]
  have hcall : (c.step (.call (.get key))).calls[c.calls.length]? =
      some ⟨.get key, (c.round c.calls.length key maxStaleRounds).1⟩ := by
    simp [Cache.step, Cache.call, begin, hcalls]
  refine ⟨_, .of_onward ho rfl rfl rfl hcall rfl rfl ?_ ?_ ?_⟩
  · rw [hrounds]
    decide
  · rw [hbuilt]
    have := ho.owed_le
    simpa using this
  · rw [hbuilt]
    simp

end Bounded

/-- In every run a `get` makes at most three rounds and one for each time that others take a slot of
its key out of the map while it goes on. It calls its factory at most once and once for each time
that a request to close the key takes out a slot where it calls its factory, be it while the
factory runs or while the call still waits for its turn. -/
theorem rounds_bounded (ttl : Nat) (before after : List Event) (key : Fingerprint) :
    let c := (new ttl).run before
    let begun := c.step (.call (.get key))
    (begun.run after).roundsOf c.calls.length key ≤
        3 + (removals c.calls.length key begun after).length ∧
      ((begun.run after).builtIn c.calls.length).length ≤
        1 + (removals c.calls.length key begun after).countP
          ((begun.run after).spoils c.calls.length) := by
  intro c begun
  have hc : c.Sound := (Sound.new ttl).run before
  obtain ⟨a, hstart⟩ := Bounded.start hc key
  obtain ⟨a', hend⟩ : ∃ a', Bounded (begun.run after) c.calls.length key a'
      (removals c.calls.length key begun after) :=
    hstart.run (hc.run [.call (.get key)]) after
  have hrounds := hend.rounds
  have hworth := hend.afoot.one_le_worth
  exact ⟨by omega, Nat.le_trans (Nat.le_add_right _ _) hend.builds⟩

/-- A call waits for a key that is closed meanwhile. Then the factory of the one that builds
panics, and the call builds in a slot that is no longer the key's. -/
def turnTooLate : List Event :=
  [.call (.close ⟨"k"⟩), .built 0 .panicked, .wake 1, .built 1 (.resource ⟨0, .direct⟩),
    .serviceClosed 1]

/-- The removals while the factory runs are not enough : here a call calls its factory twice, and
there is none. -/
theorem built_twice_after_waiting :
    let begun := ((new 1000).run [.call (.get ⟨"k"⟩)]).step (.call (.get ⟨"k"⟩))
    ¬((begun.run turnTooLate).builtIn 1).length ≤
      1 + (removals 1 ⟨"k"⟩ begun turnTooLate).countP
        fun r => r.requested && !r.during.sites.isEmpty := by
  decide

end Cache

end ConnectionBroker
