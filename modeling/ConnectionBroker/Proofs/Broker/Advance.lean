import ConnectionBroker.Proofs.Broker.Books

/-!
# While builds go on

Whatever happens to a cache while the builds in progress go on keeps its books and takes no build
from its call (`Cache.Advances`). This holds of every event but the end of a build, a cancelled
call and what is done to the world outside (`advances_step`). Where a build ends, its call goes on
with what it has left (`Books.built`), and the other calls are where they were.
-/

namespace ConnectionBroker

namespace Cache

variable {id i : CallId} {op : Operation} {c c' c'' : Cache} {a : Activity} {r : Activity × Cache}
  {builds : Multiset Stake} {ev : Event}

/-- The books stay balanced, and calls go on building. -/
structure Advances (c c' : Cache) : Prop where
  books : ∀ builds, Books c builds → Books c' builds
  calls : c.calls.length ≤ c'.calls.length
  building : ∀ id, (c.hands id).building.isSome → (c'.hands id).building.isSome

namespace Advances

theorem refl (c : Cache) : c.Advances c :=
  ⟨fun _ hb => hb, Nat.le_refl _, fun _ h => h⟩

theorem trans (h : c.Advances c') (h' : c'.Advances c'') : c.Advances c'' :=
  ⟨fun builds => h'.books builds ∘ h.books builds, h.calls.trans h'.calls,
    fun id => h'.building id ∘ h.building id⟩

/-- What has to do with neither the entries nor the calls. -/
theorem of_frame (haccounts : c'.net.accounts = c.net.accounts) (hentries : c'.entries = c.entries)
    (hcalls : c'.calls = c.calls) (hj : c'.journal = c.journal) : c.Advances c' := by
  refine ⟨fun builds hb => hb.congr haccounts ?_ ?_, by rw [hcalls], fun id h => ?_⟩
  · rw [resources, hentries, resources]
  · rw [disposals, hj, disposals]
  · rwa [hands_congr hcalls]

/-- A call begins. -/
theorem start (ha : Account c c.hands) (hp : Performs c.calls.length op (c, {}) r) :
    c.Advances { r.2 with calls := r.2.calls ++ [⟨op, r.1⟩] } := by
  have hcalls : r.2.calls = c.calls := (moves_frame hp.moves).1
  refine ⟨fun builds hb => ?_, by simp [hcalls], fun id h => ?_⟩
  · exact hb.walk hp.walk (by rwa [update_hands_length])
  · have hne : id ≠ c.calls.length := by
      rintro rfl
      rw [hands_length] at h
      cases h
    rwa [hands_append, hcalls, Function.update_of_ne hne, hands_congr hcalls]

end Advances

/-- A call that builds does not walk. -/
theorem walk_of_building {s s' : Cache × Hand} (hw : Walk id op s s')
    (hb : s.2.building.isSome) : s' = s := by
  rcases Relation.ReflTransGen.cases_head hw with rfl | ⟨_, ⟨hnone, -⟩, -⟩
  · rfl
  · rw [hnone] at hb
    cases hb

theorem Goes.hands_of_ne (h : Goes Resumes c id c') (hi : i ≠ id) : c'.hands i = c.hands i := by
  rcases h with rfl | ⟨call, r, hcall, -, hp, rfl⟩
  · rfl
  · have hcalls : r.2.calls = c.calls := (moves_frame hp.moves).1
    rw [hands_setActivity (by rw [hcalls, hcall]), Function.update_of_ne hi, hands_congr hcalls]

theorem Goes.length_calls (h : Goes Resumes c id c') : c'.calls.length = c.calls.length := by
  rcases h with rfl | ⟨call, r, hcall, -, hp, rfl⟩
  · rfl
  · have hcalls : r.2.calls = c.calls := (moves_frame hp.moves).1
    rw [setActivity, List.length_modify, hcalls]

/-- A call goes on, and if it builds it goes on building. -/
theorem Goes.advances (ha : Account c c.hands) (h : Goes Performs c id c') : c.Advances c' := by
  refine ⟨fun builds hb => ?_, Nat.le_of_eq h.resumes.length_calls.symm, fun i hi => ?_⟩
  · rcases h with rfl | ⟨call, r, hcall, -, hp, rfl⟩
    · exact hb
    · exact hb.walk hp.walk (by rwa [update_hands_of_call hcall])
  · by_cases hne : i = id
    · subst hne
      rcases h with rfl | ⟨call, r, hcall, -, hp, rfl⟩
      · exact hi
      · rw [hands_of_call hcall] at hi
        obtain ⟨hcache, hhand⟩ := Prod.mk.inj (walk_of_building hp.walk hi)
        rw [hands_setActivity (by rw [hcache, hcall]), Function.update_self, hhand]
        exact hi
    · rwa [h.resumes.hands_of_ne hne]

/-! ## Steps -/

/-- Where nobody is cancelled, a sweeper that is stopped is in the middle of nothing. -/
theorem stopSweeper_eq (ev : Event) (hev : ev.StopsSweeper)
    (hquiet : ∀ id, (c.step ev).result? id ≠ some .aborted) :
    c.stopSweeper = { c with sweeper := none } := by
  have hstopped : Strides (fun _ => True) c.stopSweeper (c.step ev) := strides_stopped hev c
  have hnone : ∀ id, c.stopSweeper.result? id ≠ some .aborted := fun id h =>
    hquiet id (hstopped.result? h)
  rcases c.stopSweeper_cases with ⟨heq, -⟩ | ⟨s, id, -, -, heq⟩
  · exact heq
  · rw [heq] at hnone ⊢
    exact (abort_eq_or_aborted _ id).resolve_right (hnone id)

/-- The event ends no build, cancels no call and does nothing to the world outside. -/
def Event.SparesBuilds : Event → Prop
  | .built _ _ => False
  | .abort _ => False
  | .world _ => False
  | _ => True

theorem advances_setSweeper (c : Cache) (s : Option Sweeper) : c.Advances { c with sweeper := s } :=
  .of_frame rfl rfl rfl rfl

theorem advances_call (ha : Account c c.hands)
    (hquiet : op = .shutdown → ∀ id, (c.call op).2.result? id ≠ some .aborted) :
    c.Advances (c.call op).2 := by
  by_cases hop : op = .shutdown
  · subst hop
    have hstop : c.stopSweeper = { c with sweeper := none } :=
      stopSweeper_eq (.call .shutdown) trivial (hquiet rfl)
    have hbegin : begin c.calls.length c .shutdown =
        ({ c with sweeper := none } : Cache).closeAll c.calls.length := by rw [← hstop]; rfl
    have ha' : Account { c with sweeper := none } ({ c with sweeper := none } : Cache).hands :=
      ha.congr rfl rfl
    have hstart := Advances.start ha' (performs_shutdown c.calls.length { c with sweeper := none })
    rw [call, hbegin]
    exact (advances_setSweeper c none).trans hstart
  · exact .start ha (performs_begin c.calls.length op hop c)

theorem advances_spawnSweeper (interval : Nat)
    (hquiet : ∀ id, (c.spawnSweeper interval).result? id ≠ some .aborted) :
    c.Advances (c.spawnSweeper interval) := by
  have hstop : c.stopSweeper = { c with sweeper := none } :=
    stopSweeper_eq (.spawnSweeper interval) trivial hquiet
  unfold spawnSweeper
  rw [hstop]
  dsimp only
  split
  · exact advances_setSweeper c none
  · exact .of_frame rfl rfl rfl rfl

theorem advances_tick (ha : Account c c.hands) : c.Advances c.tick := by
  unfold tick
  split
  · split
    · exact (Advances.start ha (performs_begin c.calls.length .sweep (by simp) c)).trans
        (advances_setSweeper _ _)
    · exact .refl c
  · exact .refl c

/-- Builds go on, whatever happens but to themselves. -/
theorem advances_step (hc : c.Sound) (ha : Account c c.hands)
    (hquiet : ev.StopsSweeper → ∀ id, (c.step ev).result? id ≠ some .aborted)
    (hev : ev.SparesBuilds) : c.Advances (c.step ev) := by
  cases ev with
  | call op => exact advances_call ha fun hop => hquiet (by rw [hop]; trivial)
  | serviceClosed id => exact (goes_serviceClosed hc.attuned id).advances ha
  | wake id => exact (goes_wake hc.attuned id).advances ha
  | spawnSweeper interval => exact advances_spawnSweeper interval (hquiet trivial)
  | tick => exact advances_tick ha
  | clock t => exact .of_frame (c.net.accounts_setClock t) rfl rfl rfl
  | sever s => exact .of_frame (c.net.accounts_sever s) rfl rfl rfl
  | forward t e => exact .of_frame (c.net.accounts_forward t e) rfl rfl rfl
  | reorder rows =>
    rw [step, reorder]
    split
    · exact .of_frame rfl rfl rfl rfl
    · exact .refl c
  | built | abort | world => exact hev.elim

/-! ## The end of a build -/

/-- What a call does after its build, with the books that it leaves. -/
theorem Books.resume {s : Cache × Hand} {key : Fingerprint} {left : Nat} {slot : SlotId}
    (ha : Account c c.hands) (hact : c.activity? id = some (.getting key left (.building slot)))
    (hm : Move id (.get key) (c, (Activity.getting key left (.building slot)).hand) s)
    (hb : Books s.1 builds) (hp : Performs id (.get key) s r) :
    Books (r.2.setActivity id r.1) builds := by
  have hhand : c.hands id = (Activity.getting key left (.building slot)).hand := by
    rw [hands, hact]
    rfl
  have hself : Function.update c.hands id (Activity.getting key left (.building slot)).hand =
      c.hands := by
    rw [← hhand, Function.update_eq_self]
  have ha' : Account s.1 (Function.update c.hands id s.2) :=
    (kept_account fun _ => True).move hm (by rwa [hself])
  exact hb.walk hp.walk ha'

/-- What a build has left goes over to the entry, and where it has failed nothing is left. -/
theorem Books.built (hc : c.Sound) (ha : Account c c.hands) {key : Fingerprint} {left : Nat}
    {slot : SlotId} (hact : c.activity? id = some (.getting key left (.building slot))) (b : Built)
    (hb : Books c (b.stake ::ₘ builds)) : Books (c.built id b) builds := by
  have hslot := hc.lt_of_building hact
  unfold Cache.built
  rw [hact]
  cases b with
  | panicked =>
    exact (empty_iff.1 hb).congr rfl rfl rfl
  | failed err =>
    exact .resume ha hact (.fail err rfl) ((empty_iff.1 hb).congr rfl rfl rfl)
      (performs_concluded (outcome?_conclude_self hslot))
  | resource r =>
    have hsettled : Books
        { c with entries := c.entries ++ [Entry.fresh key r c.net.now c.ttl] } builds :=
      settle ha.deedsOf_length hb
    have hdone : (({ c with entries := c.entries ++ [Entry.fresh key r c.net.now c.ttl] } :
        Cache).conclude slot (.ready c.entries.length)).outcome? slot =
          some (.ready c.entries.length) := outcome?_conclude_self hslot
    exact .resume ha hact (.settle r rfl) (hsettled.congr rfl rfl rfl) (performs_concluded hdone)

end Cache

end ConnectionBroker
