import ConnectionBroker.Broker.State
import ConnectionBroker.Proofs.Broker.Advance
import ConnectionBroker.Proofs.Broker.Reached

/-!
# The books of a supplied cache

The books of a cache are kept with what its builds in progress hold (`Supplied.stakes`). Every build
belongs to a call that waits for it (`Upkept.attached`), so what a build has left finds the call
that puts it into an entry. A call that begins, a build that begins and an answer to a build keep it
so.
-/

namespace ConnectionBroker

namespace Supplied

variable {s : Supplied (Request × Strategy) Construction} {id : CallId}
  {o : Order (Request × Strategy) Construction}

/-- What a call's build in progress holds. -/
def stakeOf (o : Order (Request × Strategy) Construction) : Stake :=
  match o.build with
  | some build => build.stake
  | none => .empty

/-- What the builds in progress hold. -/
def stakes (rows : List (CallId × Order (Request × Strategy) Construction)) : Multiset Stake :=
  rows.map fun row => stakeOf row.2

theorem stakes_split (pre post : List (CallId × Order (Request × Strategy) Construction))
    (id : CallId) (o : Order (Request × Strategy) Construction) :
    stakes (pre ++ (id, o) :: post) = stakeOf o ::ₘ stakes (pre ++ post) := by
  rw [stakes, stakes, List.map_append, List.map_cons, List.map_append, ← Multiset.coe_add,
    ← Multiset.cons_coe, Multiset.add_cons, Multiset.coe_add]

theorem mem_of_order (ho : s.order? id = some o) : (id, o) ∈ s.orders := by
  obtain ⟨pre, post, hsplit, -⟩ := List.lookup_eq_some_iff.1 ho
  simp [hsplit]

/-- A call has one row, and only that row changes with its order. -/
theorem split_of_order (hids : (s.orders.map (·.1)).Nodup) (ho : s.order? id = some o) :
    ∃ pre post, s.orders = pre ++ (id, o) :: post ∧ (∀ row ∈ pre ++ post, row.1 ≠ id) ∧
      ∀ o', (s.setOrder id o').orders = pre ++ (id, o') :: post := by
  obtain ⟨pre, post, hsplit, -⟩ := List.lookup_eq_some_iff.1 ho
  rw [hsplit, List.map_append, List.map_cons, List.nodup_middle, List.nodup_cons,
    ← List.map_append] at hids
  have hne : ∀ row ∈ pre ++ post, row.1 ≠ id := fun row hrow hid =>
    hids.1 (List.mem_map.2 ⟨row, hrow, hid⟩)
  refine ⟨pre, post, hsplit, hne, fun o' => ?_⟩
  have hother : ∀ rows : List (CallId × Order (Request × Strategy) Construction),
      rows ⊆ pre ++ post → rows.map (fun row => if row.1 == id then (id, o') else row) = rows := by
    intro rows hrows
    refine (List.map_congr_left fun row hrow => if_neg fun hid => ?_).trans (List.map_id _)
    exact hne row (hrows hrow) (beq_iff_eq.1 hid)
  rw [setOrder, hsplit, List.map_append, List.map_cons, hother pre (List.subset_append_left _ _),
    hother post (List.subset_append_right _ _), if_pos (beq_self_eq_true id)]

/-- What holds of a supplied cache all along. -/
structure Upkept (s : Supplied (Request × Strategy) Construction) : Prop where
  reached : s.cache.Reached
  books : s.cache.Books (stakes s.orders)
  ids : (s.orders.map (·.1)).Nodup
  /-- A build belongs to a call that waits for it. -/
  attached : ∀ row ∈ s.orders, row.1 < s.cache.calls.length ∧
    (row.2.build.isSome → (s.cache.hands row.1).building.isSome)

namespace Upkept

theorem new (ttl : Nat) : Upkept (.new ttl) where
  reached := ⟨ttl, .refl _⟩
  books := .new ttl
  ids := List.nodup_nil
  attached := by simp [Supplied.new]

/-- Something happens to the cache, and the builds go on. -/
theorem advance {c : Cache} (hu : Upkept s) (hc : c.Reached) (h : s.cache.Advances c) :
    Upkept { s with cache := c } where
  reached := hc
  books := h.books _ hu.books
  ids := hu.ids
  attached row hrow :=
    ⟨(hu.attached row hrow).1.trans_le h.calls, h.building row.1 ∘ (hu.attached row hrow).2⟩

/-- The build of a call goes a step further, and with it the cache. -/
theorem setOrder (hu : Upkept s) {o' : Order (Request × Strategy) Construction} {c : Cache}
    (ho : s.order? id = some o) (hc : c.Reached) (hcalls : s.cache.calls.length ≤ c.calls.length)
    (hbooks : ∀ rest, s.cache.Books (stakeOf o ::ₘ rest) → c.Books (stakeOf o' ::ₘ rest))
    (hothers : ∀ i ≠ id, c.hands i = s.cache.hands i)
    (hself : o'.build.isSome → (c.hands id).building.isSome) :
    Upkept { s.setOrder id o' with cache := c } := by
  obtain ⟨pre, post, hsplit, hne, hset⟩ := split_of_order hu.ids ho
  have hkeys : (pre ++ (id, o') :: post).map (·.1) = s.orders.map (·.1) := by simp [hsplit]
  refine ⟨hc, ?_, ?_, fun row hrow => ?_⟩
  · have hb := hu.books
    rw [hsplit, stakes_split] at hb
    rw [hset, stakes_split]
    exact hbooks _ hb
  · rw [hset, hkeys]
    exact hu.ids
  · rw [hset, List.mem_append, List.mem_cons, or_left_comm, ← List.mem_append] at hrow
    rcases hrow with rfl | hrow
    · exact ⟨(hu.attached (id, o) (mem_of_order ho)).1.trans_le hcalls, hself⟩
    · have hattached := hu.attached row (by
        rw [hsplit, List.mem_append, List.mem_cons, or_left_comm, ← List.mem_append]
        exact .inr hrow)
      refine ⟨hattached.1.trans_le hcalls, fun hbuild => ?_⟩
      rw [hothers row.1 (hne row hrow)]
      exact hattached.2 hbuild

/-- A call that has got the right to build begins to. -/
theorem supply (hu : Upkept s) (id : CallId) : Upkept (s.supply Broker.supplier id) := by
  unfold Supplied.supply
  split
  · rename_i key left slot wanted begun hact ho
    refine hu.setOrder ho (hu.reached.setWorld _) (Nat.le_refl _) (fun rest hb => ?_)
      (fun _ _ => rfl) fun _ => ?_
    · exact hb.trade (Construction.trades_start wanted.1 wanted.2 s.cache.net) rfl rfl
    · rw [Cache.hands, show (s.cache.setWorld _).activity? id = _ from hact]
      rfl
  · exact hu

/-- A build goes on with an answer, in a cache where the world may have changed with the answer. -/
theorem answer (hu : Upkept s) {wanted : Request × Strategy} {begun : Nat} {build : Construction}
    (ho : s.order? id = some ⟨wanted, begun, some build⟩) {c : Cache} (hc : c.Reached)
    (hframe : ∃ net, c = { s.cache with net }) (a : Construction.Answer)
    (ht : Trades s.cache.net.accounts (build.resume a c.net).2.accounts build.stake
      (build.resume a c.net).1.stake) :
    Upkept (({ s with cache := c } : Supplied _ _).answer Broker.supplier id a) := by
  obtain ⟨net₀, rfl⟩ := hframe
  have hbuilding : (s.cache.hands id).building.isSome :=
    (hu.attached (id, ⟨wanted, begun, some build⟩) (mem_of_order ho)).2 rfl
  have hanswer : ({ s with cache := { s.cache with net := net₀ } } : Supplied _ _).order? id =
      some ⟨wanted, begun, some build⟩ := ho
  have hresume : Broker.supplier.resume build a net₀ = build.resume a net₀ := rfl
  unfold Supplied.answer
  rw [hanswer]
  dsimp only
  rw [hresume]
  dsimp only at ht
  generalize build.resume a net₀ = r at ht
  obtain ⟨p, net⟩ := r
  dsimp only at ht ⊢
  cases p with
  | waiting build' =>
    refine hu.setOrder ho (hc.setWorld net) (Nat.le_refl _) (fun rest hb => ?_) (fun _ _ => rfl)
      fun _ => hbuilding
    exact hb.trade ht rfl rfl
  | ended b =>
    obtain ⟨key, left, slot, hact⟩ := Cache.activity_of_building hbuilding
    set c := ({ s.cache with net := net₀ } : Cache).setWorld net with hdef
    have hc' : c.Reached := hc.setWorld net
    have hgoes : Cache.Goes Resumes c id (c.built id b) := Cache.goes_built hc'.sound id b
    have hbuilt : (c.step (.built id b)).Reached := hc'.step (by simp)
    have hend : Upkept { s.setOrder id ⟨wanted, begun, none⟩ with cache := c.built id b } := by
      refine hu.setOrder ho hbuilt (Nat.le_of_eq hgoes.length_calls.symm) (fun rest hb => ?_)
        (fun i hi => hgoes.hands_of_ne hi) fun h => by cases h
      have hleft : c.Books (b.stake ::ₘ rest) := hb.trade ht rfl rfl
      rw [show stakeOf ⟨wanted, begun, none⟩ = Stake.empty from rfl, Cache.Books.empty_iff]
      exact hleft.built hc'.sound hc'.account hact b
    exact hend.supply id

/-- A call gets an order, of which nothing is begun. -/
theorem addOrder (hu : Upkept s) (wanted : Request × Strategy)
    (hnew : ∀ row ∈ s.orders, row.1 ≠ id) (hid : id < s.cache.calls.length) :
    Upkept { s with orders := s.orders ++ [(id, ⟨wanted, 0, none⟩)] } where
  reached := hu.reached
  books := by
    have hb := Cache.Books.empty_iff.2 hu.books
    rw [stakes_split, List.append_nil]
    exact hb
  ids := by
    rw [List.map_append, List.map_singleton, List.nodup_append]
    refine ⟨hu.ids, List.nodup_singleton _, fun i hi j hj => ?_⟩
    obtain ⟨row, hrow, rfl⟩ := List.mem_map.1 hi
    obtain rfl := List.mem_singleton.1 hj
    exact hnew row hrow
  attached row hrow := by
    rcases List.mem_append.1 hrow with hrow | hrow
    · exact hu.attached row hrow
    · obtain rfl := List.mem_singleton.1 hrow
      exact ⟨hid, nofun⟩

/-- A `get` begins. -/
theorem get (hu : Upkept s) (key : Fingerprint) (wanted : Request × Strategy) :
    Upkept (s.get Broker.supplier key wanted).2 := by
  have hstep : (s.cache.step (.call (.get key))).Reached := hu.reached.step (by simp)
  have hcall : Upkept { s with cache := (s.cache.call (.get key)).2 } :=
    hu.advance hstep (Cache.advances_call hu.reached.account (by simp))
  have hcalls : (s.cache.call (.get key)).2.calls.length = s.cache.calls.length + 1 := by
    have hp : Performs s.cache.calls.length (.get key) (s.cache, {})
        (Cache.begin s.cache.calls.length s.cache (.get key)) :=
      Cache.performs_begin _ _ (by simp) _
    have hbegin : (Cache.begin s.cache.calls.length s.cache (.get key)).2.calls = s.cache.calls :=
      (Cache.moves_frame hp.moves).1
    simp [Cache.call, hbegin]
  refine (hcall.addOrder wanted (fun row hrow => ?_) ?_).supply s.cache.calls.length
  · exact Nat.ne_of_lt (hu.attached row hrow).1
  · exact Nat.lt_of_lt_of_eq (Nat.lt_succ_self _) hcalls.symm

/-- A build goes on with an answer, if it waits for one. What it is told is no session. -/
theorem answer_other (hu : Upkept s) (id : CallId) {a : Construction.Answer}
    (ha : ∀ s, a ≠ .session (.ok s)) : Upkept (s.answer Broker.supplier id a) := by
  by_cases h : ∃ wanted begun build, s.order? id = some ⟨wanted, begun, some build⟩
  · obtain ⟨wanted, begun, build, ho⟩ := h
    exact hu.answer ho hu.reached ⟨s.cache.net, rfl⟩ a (build.trades_resume ha s.cache.net)
  · have hnone : s.answer Broker.supplier id a = s := by
      unfold Supplied.answer
      split
      · rename_i wanted begun build ho
        exact absurd ⟨wanted, begun, build, ho⟩ h
      · rfl
    rwa [hnone]

/-- Where every call has ended no build is in progress, and the books are those of the cache. -/
theorem books_at_rest (hu : Upkept s) (hrest : s.cache.AtRest) : s.cache.Books 0 := by
  have hempty : ∀ k ∈ stakes s.orders, k = Stake.empty := by
    intro k hk
    obtain ⟨row, hrow, rfl⟩ := List.mem_map.1 (Multiset.mem_coe.1 hk)
    have hbuild : row.2.build = none := by
      refine Option.not_isSome_iff_eq_none.1 fun hbuild => ?_
      have hbuilding := (hu.attached row hrow).2 hbuild
      rw [hrest.hands] at hbuilding
      cases hbuilding
    rw [stakeOf, hbuild]
  have hnone : ∀ {α : Type} (f : Stake → Option α), f .empty = none →
      (stakes s.orders).filterMap f = 0 := fun f hf =>
    Multiset.eq_zero_of_forall_notMem fun x hx => by
      obtain ⟨k, hk, hkx⟩ := (Multiset.mem_filterMap _ _).1 hx
      rw [hempty k hk, hf] at hkx
      cases hkx
  have hbooks := hu.books
  rw [Cache.Books, hnone _ rfl, hnone _ rfl] at hbooks
  rwa [Cache.Books, Multiset.filterMap_zero, Multiset.filterMap_zero]

end Upkept

end Supplied

end ConnectionBroker
