import ConnectionBroker.Proofs.Cache.Run
import ConnectionBroker.Proofs.Cache.Shelf
import ConnectionBroker.Proofs.Network.Steady

/-!
# One errand after the other

A cache that one caller uses alone. `Cache.serve` is what becomes of an errand : the time comes, the
map stands in some order (`Turn`), a call begins, and the world goes on until it has ended
(`settle`). Services are closed as soon as they are told to, and the factory takes its time. What an
errand shows (`Cache.Reply`) is its result, the calls of the factory, and what happened in the
world.

`Settles` is how a call comes to its end, for proofs : `settles_batch` releases one entry after the
other, and goes on with whatever the call does then.
-/

namespace ConnectionBroker

/-- An errand whose turn has come, with the map in some order. -/
structure Turn where
  errand : Errand
  order : List (Fingerprint × SlotId)

namespace Cache

/-- What becomes of an errand. -/
structure Reply where
  /-- None if the errand never ends. -/
  result : Option Result
  /-- The keys that the factory was called for. -/
  builds : List Fingerprint
  /-- What happened in the world, and when. -/
  happened : List (Nat × Happening)

/-- The world goes on for some steps with one call in progress: a service that is told to close is
closed at once, and the factory works as it does. What is found are the keys that the factory was
called for. -/
def settle (f : Factory) (id : CallId) : Nat → Cache → List Fingerprint × Cache
  | 0, c => ([], c)
  | n + 1, c =>
    match c.activity? id with
    | some (.getting key _ (.building _)) =>
      let (keys, c) := settle f id n (c.run [.clock (c.net.now + f.delay), .built id f.outcome])
      (key :: keys, c)
    | some _ => settle f id n (c.step (.serviceClosed id))
    | none => ([], c)

/-- What was added to the log of a cache since it was in an earlier state. -/
def since (c c' : Cache) : List (Nat × Happening) :=
  (c'.net.log.take (c'.net.log.length - c.net.log.length)).reverse

/-- A use of the cache, with nobody else there. There are at most as many entries to be released as
keys, and one that was just built. -/
def perform (c : Cache) (op : Operation) (f : Factory) : Reply × Cache :=
  let (builds, c') := settle f c.calls.length (c.current.length + 2) (c.step (.call op))
  (⟨c'.result? c.calls.length, builds, c.since c'⟩, c')

/-- The factory of somebody who has none. -/
def noFactory : Factory :=
  ⟨0, .panicked⟩

/-- What becomes of an errand that has its turn now. -/
def answer (c : Cache) : Ask → Reply × Cache
  | .get key f => c.perform (.get key) f
  | .touch key => c.perform (.touch key) noFactory
  | .sweep => c.perform .sweep noFactory
  | .close key => c.perform (.close key) noFactory
  | .closeAll => c.perform .closeAll noFactory
  | .size => (⟨some (.count c.size), [], []⟩, c)
  | .contains key => (⟨some (.flag (c.contains key)), [], []⟩, c)

/-- What becomes of an errand. -/
def serve (c : Cache) (t : Turn) : Reply × Cache :=
  (c.run [.clock t.errand.time, .reorder t.order]).answer t.errand.ask

/-- What becomes of one errand after the other. -/
def replies (c : Cache) : List Turn → List Reply
  | [] => []
  | t :: rest => (c.serve t).1 :: replies (c.serve t).2 rest

/-! ## How a call comes to its end -/

variable {c c' : Cache} {id : CallId} {f : Factory} {e : EntryId} {r : Resource}
  {a : Activity} {n : Nat} {builds : List Fingerprint}

/-- With enough steps the call comes to its end there. -/
def Settles (f : Factory) (id : CallId) (n : Nat) (c : Cache) (builds : List Fingerprint)
    (c' : Cache) : Prop :=
  ∀ m, n ≤ m → settle f id m c = (builds, c')

/-- Goes on with an activity. -/
def resume (id : CallId) (r : Activity × Cache) : Cache :=
  r.2.setActivity id r.1

theorem lt_of_activity? (h : c.activity? id = some a) : id < c.calls.length := by
  obtain ⟨call, hcall, -⟩ := activity?_eq_some_iff.1 h
  exact (List.getElem?_eq_some_iff.1 hcall).1

theorem activity?_resume {r : Activity × Cache} (h : id < r.2.calls.length) :
    (resume id r).activity? id = some r.1 := by
  simp [resume, setActivity, activity?, h]

theorem serviceClosed_eq (h : c.activity? id = some a) :
    c.step (.serviceClosed id) = resume id (afterClose id c a) := by
  rw [step, serviceClosed, h]
  rfl

theorem Settles.ended {r : Result} (h : c.activity? id = some (.ended r)) :
    Settles f id 0 c [] c := by
  intro m _
  induction m with
  | zero => rfl
  | succ m ih =>
    have hstep : c.step (.serviceClosed id) = c := by
      rw [serviceClosed_eq h]
      exact setActivity_self h
    simp only [settle, h, hstep]
    exact ih (Nat.zero_le m)

theorem Settles.release (h : c.activity? id = some a) (ha : a.releasing? = some e)
    (hs : Settles f id n (resume id (afterClose id c a)) builds c') :
    Settles f id (n + 1) c builds c' := by
  intro m hm
  obtain ⟨m, rfl⟩ := Nat.exists_eq_add_of_le' (Nat.le_trans (Nat.le_add_left 1 n) hm)
  rw [← serviceClosed_eq h] at hs
  unfold settle
  rw [h]
  split
  · rename_i hb
    cases Option.some.inj hb
    cases ha
  · exact hs m (Nat.le_of_add_le_add_right hm)
  · contradiction

theorem Settles.build {key : Fingerprint} {left : Nat} {slot : SlotId}
    (h : c.activity? id = some (.getting key left (.building slot)))
    (hs : Settles f id n (c.run [.clock (c.net.now + f.delay), .built id f.outcome]) builds c') :
    Settles f id (n + 1) c (key :: builds) c' := by
  intro m hm
  obtain ⟨m, rfl⟩ := Nat.exists_eq_add_of_le' (Nat.le_trans (Nat.le_add_left 1 n) hm)
  unfold settle
  rw [h]
  dsimp only
  rw [hs m (Nat.le_of_add_le_add_right hm)]

/-! ## Releases -/

/-- An entry is there with a resource. -/
def Holds (c : Cache) (e : EntryId) (r : Resource) : Prop :=
  ∃ entry, c.entries[e]? = some entry ∧ entry.resource = r

theorem beginRelease_of_holds (h : c.Holds e r) : c.beginRelease id e =
    { c with
      net := c.net.closeService r.service
      journal := c.journal ++ [(id, .tellService e)] } := by
  obtain ⟨entry, he, rfl⟩ := h
  simp [beginRelease, tellService, he, note]

theorem endRelease_of_holds (h : c.Holds e r) : c.endRelease id e =
    { c with
      net := c.net.closeHop r.hop
      journal := c.journal ++ [(id, .serviceClosed e), (id, .closeHop e)] } := by
  obtain ⟨entry, he, rfl⟩ := h
  simp [endRelease, closeHop, he, note]

/-- A call that has one entry after the other released, the first of which has its service told,
goes on as if all of them were released at once. -/
theorem settles_batch {busy : EntryId → List EntryId → Activity} {next : Cache → Activity × Cache}
    (hbusy : ∀ e rest, (busy e rest).releasing? = some e)
    (hlast : ∀ e c, afterClose id c (busy e []) = next (c.endRelease id e))
    (hmore : ∀ e e' rest c, afterClose id c (busy e (e' :: rest)) =
      (busy e' rest, (c.endRelease id e).beginRelease id e'))
    {rest : List EntryId} {rs : List Resource} (ha : c.activity? id = some (busy e rest))
    (he : c.Holds e r) (hrest : List.Forall₂ c.Holds rest rs) :
    ∃ journal calls, id < calls.length ∧ ∀ n builds c',
      Settles f id n (resume id (next
        { c with net := rs.foldl Network.release (c.net.closeHop r.hop), journal, calls }))
        builds c' → Settles f id (n + (rest.length + 1)) c builds c' := by
  induction rest generalizing c e r rs with
  | nil =>
    cases hrest
    refine ⟨c.journal ++ [(id, .serviceClosed e), (id, .closeHop e)], c.calls, lt_of_activity? ha,
      fun n builds c' hs => ?_⟩
    refine .release ha (hbusy e []) ?_
    rw [hlast, endRelease_of_holds he]
    exact hs
  | cons e' rest ih =>
    obtain ⟨r', rs', he', hrest', rfl⟩ := List.forall₂_cons_left_iff.1 hrest
    have hheld : (c.endRelease id e).Holds e' r' := by
      rw [endRelease_of_holds he]
      exact he'
    have hnext : afterClose id c (busy e (e' :: rest)) = (busy e' rest, { c with
        net := (c.net.closeHop r.hop).closeService r'.service
        journal := c.journal ++ [(id, .serviceClosed e), (id, .closeHop e)] ++
          [(id, .tellService e')] }) := by
      rw [hmore, beginRelease_of_holds hheld, endRelease_of_holds he]
    have ha' : (resume id (afterClose id c (busy e (e' :: rest)))).activity? id =
        some (busy e' rest) := by
      rw [hnext]
      exact activity?_resume (lt_of_activity? ha)
    obtain ⟨journal, calls, hlt, h⟩ :=
      ih ha' (by rw [hnext]; exact he') (by rw [hnext]; exact hrest')
    refine ⟨journal, calls, hlt, fun n builds c' hs => ?_⟩
    refine .release ha (hbusy e _) (h n builds c' ?_)
    rw [hnext]
    exact hs

end Cache

end ConnectionBroker
