import ConnectionBroker.Proofs.Cache.Refinement

/-!
# Keys apart

Whoever uses one key learns nothing of the others, and nothing of the sweeps (`learned`). A run is
compared with what is left of it when everything else is taken out : the factory is called for the
same errands, and every `get` and every `touch` of the key comes to the same (`isolated`). What may
differ is whether `close` finds a service, since a stale one stays on the shelf until somebody looks
for it. Services are told apart by their numbers, so where every factory call has one of its own, it
is the factory call that is the same.

On two shelves the same is kept under a key if what is not stale there is the same, from now on
(`Shelf.Alike`). What is done under other keys is of no account for that (`answer_other`), since
what is stale stays stale, and what is done under the key depends on nothing else (`answer_on`).
-/

namespace ConnectionBroker

variable {n : Network} {ttl t u : Nat} {lives : Hop → Nat → Bool} {s s' : Shelf} {f : Factory}
  {ask : Ask} {r : Errand} {key : Fingerprint} {k : Shelved}

/-- The use of one key or a sweep, with a factory that takes no time. -/
def Ask.Swift : Ask → Prop
  | .get _ f => f.delay = 0
  | .touch _ => True
  | .sweep => True
  | .close _ => True
  | _ => False

/-- The key that something is wanted of. -/
def Ask.key? : Ask → Option Fingerprint
  | .get key _ => some key
  | .touch key => some key
  | .close key => some key
  | .contains key => some key
  | _ => none

/-- Something is wanted of the key. -/
def Errand.isFor (key : Fingerprint) (r : Errand) : Bool :=
  r.ask.key? == some key

theorem Errand.isFor_iff : r.isFor key = true ↔ r.ask.key? = some key :=
  beq_iff_eq

/-- A result, and the keys that the factory was called for. -/
abbrev Finding := Option Result × List Fingerprint

/-- What a reply of the cache says of that. -/
def Cache.Reply.finding (a : Cache.Reply) : Finding :=
  (a.result, a.builds)

def Shelf.Reply.finding (a : Shelf.Reply) : Finding :=
  (some a.result, a.builds)

/-- What is learned from it, where nobody looks at what `close` says. -/
def Ask.learned : Ask → Finding → Finding
  | .close _, x => (none, x.2)
  | _, x => x

/-- What is learned by whoever wants something of one key. -/
def learned (key : Fingerprint) (errands : List Errand) (findings : List Finding) : List Finding :=
  ((errands.zip findings).filter (·.1.isFor key)).map fun p => p.1.ask.learned p.2

theorem learned_of_key {x : Finding} {errands : List Errand} {findings : List Finding}
    (h : r.isFor key = true) : learned key (r :: errands) (x :: findings) =
      r.ask.learned x :: learned key errands findings := by
  simp [learned, h]

theorem learned_of_other {x : Finding} {errands : List Errand} {findings : List Finding}
    (h : r.isFor key = false) : learned key (r :: errands) (x :: findings) =
      learned key errands findings := by
  simp [learned, h]

/-! ## What is stale stays stale -/

theorem Shelved.stale_of_le (hn : n.Tireless) (hle : t ≤ u) (h : k.stale ttl n.lives t = true) :
    k.stale ttl n.lives u = true := by
  rw [stale, Bool.or_eq_true, Bool.not_eq_true', decide_eq_true_eq] at h ⊢
  rcases h with h | h
  · exact .inl (by omega)
  · refine .inr (Bool.eq_false_iff.2 fun halive => ?_)
    rw [Network.lives_of_le hn hle halive] at h
    cases h

namespace Shelf

/-- What is kept under a key and not stale at a time. -/
def fresh? (s : Shelf) (ttl : Nat) (lives : Hop → Nat → Bool) (key : Fingerprint) (t : Nat) :
    Option Shelved :=
  (s.find? key).filter fun k => !k.stale ttl lives t

theorem find?_fresh (s : Shelf) (key : Fingerprint) :
    (s.fresh ttl lives).find? key = s.fresh? ttl lives key s.now :=
  find?_keep _ _ _

/-- What is not stale later was not stale before. -/
theorem fresh?_of_filtered (hn : n.Tireless) (hle : t ≤ u)
    (h : s'.find? key = s.fresh? ttl n.lives key t) :
    s'.fresh? ttl n.lives key u = s.fresh? ttl n.lives key u := by
  rw [fresh?, h, fresh?, fresh?]
  cases s.find? key with
  | none => rfl
  | some k =>
    cases hstale : k.stale ttl n.lives t with
    | true => simp [Option.filter_some, hstale, Shelved.stale_of_le hn hle hstale]
    | false => simp [Option.filter_some, hstale]

/-- From a time on, the same is kept under a key on two shelves, apart from what is stale. -/
structure Alike (n : Network) (ttl : Nat) (key : Fingerprint) (t : Nat) (s s' : Shelf) : Prop where
  le : s.now ≤ t
  le' : s'.now ≤ t
  fresh : ∀ u, t ≤ u → s.fresh? ttl n.lives key u = s'.fresh? ttl n.lives key u

/-! ## Other keys -/

theorem now_fetch (hdelay : f.delay = 0) (s : Shelf) (key : Fingerprint) :
    (s.fetch ttl lives key f).2.now = s.now := by
  unfold fetch
  split
  · rfl
  · rw [now_settle, hdelay]
    exact Nat.max_self _

theorem find?_settle_other {key' : Fingerprint} (hne : key' ≠ key) (s : Shelf)
    (outcome : Cache.Built) :
    (s.settle ttl lives key' outcome).2.find? key = s.find? key := by
  cases outcome with
  | failed e => rfl
  | panicked => rfl
  | resource r =>
    rw [settle]
    split
    · rfl
    · rw [find?_put, if_neg hne]

theorem find?_fetch_other {key' : Fingerprint} (hne : key' ≠ key) (s : Shelf) (f : Factory) :
    (s.fetch ttl lives key' f).2.find? key = s.find? key := by
  unfold fetch
  split
  · rename_i k hk
    have hkey : k.key ≠ key := (find?_eq_some_iff.1 hk).2 ▸ hne
    rw [find?_put, if_neg hkey]
  · exact find?_settle_other hne _ _

theorem find?_keep_other {key' : Fingerprint} (hne : key' ≠ key) (s : Shelf) :
    (s.keep (·.key != key')).find? key = s.find? key := by
  rw [find?_keep]
  cases hfind : s.find? key with
  | none => rfl
  | some k =>
    have hkey : k.key ≠ key' := fun h => hne (h.symm.trans (find?_eq_some_iff.1 hfind).2)
    simp [Option.filter_some, hkey]

/-- What is wanted of another key takes nothing from a key but what is stale. -/
theorem answer_other (hswift : ask.Swift) (hkey : ask.key? ≠ some key) (s : Shelf) :
    (s.answer ttl lives ask).2.now = s.now ∧
      ((s.answer ttl lives ask).2.find? key = s.find? key ∨
        (s.answer ttl lives ask).2.find? key = s.fresh? ttl lives key s.now) := by
  cases ask with
  | get key' f =>
    have hne : key' ≠ key := fun h => hkey (congrArg some h)
    exact ⟨now_fetch hswift _ _, .inr ((find?_fetch_other hne _ f).trans (find?_fresh s key))⟩
  | touch key' =>
    have hne : key' ≠ key := fun h => hkey (congrArg some h)
    rw [answer, touch]
    split
    · rename_i k hk
      split
      · exact ⟨rfl, .inl (find?_keep_other hne s)⟩
      · have hkey : k.key ≠ key := (find?_eq_some_iff.1 hk).2 ▸ hne
        exact ⟨rfl, .inl (by rw [find?_put, if_neg hkey])⟩
    · exact ⟨rfl, .inl rfl⟩
  | sweep => exact ⟨rfl, .inr (find?_fresh s key)⟩
  | close key' =>
    have hne : key' ≠ key := fun h => hkey (congrArg some h)
    exact ⟨rfl, .inl (find?_keep_other hne s)⟩
  | closeAll => exact hswift.elim
  | size => exact hswift.elim
  | contains key' => exact hswift.elim

/-! ## The key itself -/

theorem settle_alike (hnow : s.now = s'.now) (hfind : s.find? key = s'.find? key)
    (outcome : Cache.Built) :
    (s.settle ttl lives key outcome).1 = (s'.settle ttl lives key outcome).1 ∧
      (s.settle ttl lives key outcome).2.find? key =
        (s'.settle ttl lives key outcome).2.find? key := by
  cases outcome with
  | failed e => exact ⟨rfl, hfind⟩
  | panicked => exact ⟨rfl, hfind⟩
  | resource r =>
    rw [settle, settle, hnow]
    split
    · exact ⟨rfl, hfind⟩
    · exact ⟨rfl, by rw [find?_put, find?_put, hfind]⟩

theorem fetch_alike (hnow : s.now = s'.now) (hfind : s.find? key = s'.find? key) (f : Factory) :
    (s.fetch ttl lives key f).1 = (s'.fetch ttl lives key f).1 ∧
      (s.fetch ttl lives key f).2.find? key = (s'.fetch ttl lives key f).2.find? key := by
  rw [fetch, fetch, hfind, hnow]
  split
  · exact ⟨rfl, by rw [find?_put, find?_put, hfind]⟩
  · have hwait : (s.wait (s'.now + f.delay)).now = (s'.wait (s'.now + f.delay)).now :=
      congrArg (max · (s'.now + f.delay)) hnow
    exact settle_alike hwait hfind f.outcome

/-- What a `touch` comes to, and what it leaves, depends on what is not stale. -/
theorem touch_spec (s : Shelf) (key : Fingerprint) :
    (s.touch ttl lives key).1.finding = (some (.flag (s.fresh? ttl lives key s.now).isSome), []) ∧
      (s.touch ttl lives key).2.now = s.now ∧
        (s.touch ttl lives key).2.find? key =
          (s.fresh? ttl lives key s.now).map fun k => { k with lastUse := s.now } := by
  unfold touch fresh?
  cases hfind : s.find? key with
  | none => exact ⟨rfl, rfl, hfind⟩
  | some k =>
    have hkey : k.key = key := (find?_eq_some_iff.1 hfind).2
    dsimp only
    cases hstale : k.stale ttl lives s.now with
    | true =>
      refine ⟨by simp [Reply.finding, Reply.plain, Option.filter_some, hstale], rfl, ?_⟩
      rw [if_pos rfl, find?_keep, hfind]
      simp [Option.filter_some, hstale, hkey]
    | false =>
      refine ⟨by simp [Reply.finding, Reply.plain, Option.filter_some, hstale], rfl, ?_⟩
      rw [if_neg Bool.false_ne_true, find?_put, if_pos hkey]
      simp [Option.filter_some, hstale]

/-- What is wanted of a key depends on what is kept under it and not stale, and leaves the same. -/
theorem answer_on (hswift : ask.Swift) (hkey : ask.key? = some key) (hnow : s.now = s'.now)
    (hfresh : s.fresh? ttl lives key s.now = s'.fresh? ttl lives key s'.now) :
    ask.learned (s.answer ttl lives ask).1.finding =
        ask.learned (s'.answer ttl lives ask).1.finding ∧
      (s.answer ttl lives ask).2.now = s.now ∧ (s'.answer ttl lives ask).2.now = s'.now ∧
        (s.answer ttl lives ask).2.find? key = (s'.answer ttl lives ask).2.find? key := by
  cases ask with
  | get key' f =>
    obtain rfl : key' = key := Option.some.inj hkey
    have hfind : (s.fresh ttl lives).find? key' = (s'.fresh ttl lives).find? key' := by
      rw [find?_fresh, find?_fresh, hfresh]
    obtain ⟨hreply, hafter⟩ := @fetch_alike ttl lives (s.fresh ttl lives) (s'.fresh ttl lives) key'
      hnow hfind f
    have hfinding : ((s.fresh ttl lives).fetch ttl lives key' f).1.finding =
        ((s'.fresh ttl lives).fetch ttl lives key' f).1.finding := congrArg _ hreply
    exact ⟨hfinding, now_fetch hswift _ _, now_fetch hswift _ _, hafter⟩
  | touch key' =>
    obtain rfl : key' = key := Option.some.inj hkey
    obtain ⟨hfinding, hsame, hafter⟩ := @touch_spec ttl lives s key'
    obtain ⟨hfinding', hsame', hafter'⟩ := @touch_spec ttl lives s' key'
    rw [hfresh] at hfinding
    refine ⟨hfinding.trans hfinding'.symm, hsame, hsame', ?_⟩
    rw [answer, answer, hafter, hafter', hfresh, hnow]
  | close key' =>
    obtain rfl : key' = key := Option.some.inj hkey
    have hnone (s : Shelf) : (s.keep (·.key != key')).find? key' = none := by
      rw [find?_keep]
      cases hfind : s.find? key' with
      | none => rfl
      | some k => simp [Option.filter_some, (find?_eq_some_iff.1 hfind).2]
    exact ⟨rfl, rfl, rfl, (hnone s).trans (hnone s').symm⟩
  | sweep => cases hkey
  | closeAll => cases hkey
  | size => cases hkey
  | contains key' => exact hswift.elim

/-! ## Runs -/

/-- What becomes of errands, as far as it is learned at once. -/
def findings (s : Shelf) (ttl : Nat) (lives : Hop → Nat → Bool) (errands : List Errand) :
    List Finding :=
  (s.replies ttl lives errands).map (·.reply.finding)

theorem wait_of_le (h : s.now ≤ t) : (s.wait t).now = t :=
  Nat.max_eq_right h

/-- An errand for another key, or a sweep, can be left out. -/
theorem Alike.other (hn : n.Tireless) (h : Alike n ttl key t s s') (hle : t ≤ r.time)
    (hswift : r.ask.Swift) (hother : r.isFor key = false) :
    Alike n ttl key r.time (s.serve ttl n.lives r).2 s' := by
  have hnow : (s.wait r.time).now = r.time := wait_of_le (Nat.le_trans h.le hle)
  have hkey : r.ask.key? ≠ some key := fun h => by simp [Errand.isFor, h] at hother
  obtain ⟨hsame, hfind⟩ := @answer_other ttl n.lives r.ask key hswift hkey (s.wait r.time)
  refine ⟨Nat.le_of_eq (hsame.trans hnow), Nat.le_trans h.le' hle, fun u hu => ?_⟩
  rw [← h.fresh u (Nat.le_trans hle hu)]
  rcases hfind with hfind | hfind
  · exact congrArg (Option.filter _) hfind
  · rw [hnow] at hfind
    exact fresh?_of_filtered (s := s.wait r.time) hn hu hfind

/-- An errand for the key comes to the same, and leaves the same. -/
theorem Alike.on (h : Alike n ttl key t s s') (hle : t ≤ r.time) (hswift : r.ask.Swift)
    (hkey : r.isFor key = true) :
    r.ask.learned (s.serve ttl n.lives r).1.finding =
      r.ask.learned (s'.serve ttl n.lives r).1.finding ∧
        Alike n ttl key r.time (s.serve ttl n.lives r).2 (s'.serve ttl n.lives r).2 := by
  have hnow : (s.wait r.time).now = r.time := wait_of_le (Nat.le_trans h.le hle)
  have hnow' : (s'.wait r.time).now = r.time := wait_of_le (Nat.le_trans h.le' hle)
  have hfresh : (s.wait r.time).fresh? ttl n.lives key (s.wait r.time).now =
      (s'.wait r.time).fresh? ttl n.lives key (s'.wait r.time).now := by
    rw [hnow, hnow']
    exact h.fresh _ hle
  obtain ⟨hlearned, hsame, hsame', hfind⟩ :=
    answer_on hswift (Errand.isFor_iff.1 hkey) (hnow.trans hnow'.symm) hfresh
  exact ⟨hlearned, Nat.le_of_eq (hsame.trans hnow), Nat.le_of_eq (hsame'.trans hnow'),
    fun u _ => congrArg (Option.filter _) hfind⟩

/-- Whoever uses one key learns the same if everything else is taken out of a run. -/
theorem learned_filter (hn : n.Tireless) (errands : List Errand) :
    ∀ {t : Nat} {s s' : Shelf}, Alike n ttl key t s s' →
      (t :: errands.map (·.time)).Pairwise (· ≤ ·) → (∀ r ∈ errands, r.ask.Swift) →
      learned key errands (s.findings ttl n.lives errands) =
        learned key (errands.filter (·.isFor key))
          (s'.findings ttl n.lives (errands.filter (·.isFor key))) := by
  induction errands with
  | nil => exact fun _ _ _ => rfl
  | cons r rest ih =>
    intro t s s' h htimes hswift
    obtain ⟨hle, htimes'⟩ := List.pairwise_cons.1 htimes
    have hnext : t ≤ r.time := hle _ (List.mem_map_of_mem List.mem_cons_self)
    have hswift' : ∀ r ∈ rest, r.ask.Swift := fun r hr => hswift r (List.mem_cons_of_mem _ hr)
    cases hkey : r.isFor key with
    | true =>
      obtain ⟨hlearned, h'⟩ := h.on hnext (hswift r List.mem_cons_self) hkey
      rw [List.filter_cons_of_pos hkey]
      calc learned key (r :: rest) (s.findings ttl n.lives (r :: rest))
        _ = r.ask.learned (s.serve ttl n.lives r).1.finding ::
            learned key rest ((s.serve ttl n.lives r).2.findings ttl n.lives rest) :=
          learned_of_key hkey
        _ = r.ask.learned (s'.serve ttl n.lives r).1.finding ::
            learned key (rest.filter (·.isFor key))
              ((s'.serve ttl n.lives r).2.findings ttl n.lives (rest.filter (·.isFor key))) := by
          rw [hlearned, ih h' htimes' hswift']
        _ = _ := (learned_of_key hkey).symm
    | false =>
      rw [List.filter_cons_of_neg (by simp [hkey])]
      exact (learned_of_other hkey).trans
        (ih (h.other hn hnext (hswift r List.mem_cons_self) hkey) htimes' hswift')

end Shelf

namespace Cache

/-- A cache is found to do what a shelf does. -/
theorem findings_of_mirrors {c : Cache} (hn : n.Tireless) (turns : List Turn)
    (hm : Mirrors n ttl (turns.filterMap (·.errand.ask.hop?)) c s) :
    (c.replies turns).map Reply.finding = s.findings ttl n.lives (turns.map (·.errand)) := by
  rw [Shelf.findings, ← List.forall₂_eq_eq_eq, List.forall₂_map_left_iff,
    List.forall₂_map_right_iff]
  exact (replies_of_mirrors hn turns hm).imp fun _ _ h => Prod.ext h.result h.builds

/-- For whoever uses one key the other keys and the sweeps might as well not be there : if they are
taken out of a run, the factory is called for the same errands, and every `get` and every `touch` of
the key comes to the same. -/
theorem isolated (ttl : Nat) (key : Fingerprint) (full part : List Turn) (hn : n.Tireless)
    (hap : (full.filterMap (·.errand.ask.hop?)).Pairwise n.Apart)
    (hswift : ∀ t ∈ full, t.errand.ask.Swift)
    (htimes : (n.now :: full.map (·.errand.time)).Pairwise (· ≤ ·))
    (hpart : part.map (·.errand) =
      (full.map (·.errand)).filter (·.isFor key)) :
    learned key (full.map (·.errand))
        ((({ Cache.new ttl with net := n } : Cache).replies full).map Reply.finding) =
      learned key (part.map (·.errand))
        ((({ Cache.new ttl with net := n } : Cache).replies part).map Reply.finding) := by
  have hsub : (part.filterMap (·.errand.ask.hop?)).Sublist
      (full.filterMap (·.errand.ask.hop?)) := by
    have hmap (turns : List Turn) : turns.filterMap (·.errand.ask.hop?) =
        (turns.map (·.errand)).filterMap (·.ask.hop?) := by
      rw [List.filterMap_map]
      rfl
    rw [hmap, hmap, hpart]
    exact List.filter_sublist.filterMap _
  rw [findings_of_mirrors hn full (mirrors_new hap),
    findings_of_mirrors hn part (mirrors_new (hap.sublist hsub)), hpart]
  refine Shelf.learned_filter hn _ ⟨Nat.le_refl n.now, Nat.le_refl n.now, fun _ _ => rfl⟩ ?_ ?_
  · rwa [List.map_map]
  · rintro r hr
    obtain ⟨turn, hturn, rfl⟩ := List.mem_map.1 hr
    exact hswift turn hturn

/-- The session of one service is lost, and a sweep finds that out before anybody else. -/
def sweptBetween : List Turn :=
  [⟨⟨0, .get ⟨"a"⟩ ⟨0, .resource ⟨0, .channel 0⟩⟩⟩, []⟩,
    ⟨⟨10, .get ⟨"b"⟩ ⟨0, .resource ⟨1, .channel 1⟩⟩⟩, []⟩, ⟨⟨60, .sweep⟩, []⟩,
    ⟨⟨70, .touch ⟨"a"⟩⟩, []⟩, ⟨⟨80, .get ⟨"a"⟩ ⟨0, .resource ⟨2, .direct⟩⟩⟩, []⟩]

/-- Nobody needs the sweep, nor the other key, to find that out. -/
def notSwept : List Turn :=
  sweptBetween.filter (·.errand.isFor ⟨"a"⟩)

/-- A `touch` finds nothing in the run with the sweep, and something stale in the one without. -/
theorem isolated_from_sweep :
    learned ⟨"a"⟩ (sweptBetween.map (·.errand))
        ((({ Cache.new 1000 with net := twoSessions } : Cache).replies sweptBetween).map
          Reply.finding) =
      [(some (.service 0), [⟨"a"⟩]), (some (.flag false), []), (some (.service 2), [⟨"a"⟩])] := by
  have hswift : ∀ t ∈ sweptBetween, t.errand.ask.Swift := by
    simp [sweptBetween, Ask.Swift]
  refine (isolated 1000 ⟨"a"⟩ sweptBetween notSwept tireless_twoSessions (by decide) hswift
    (by decide) rfl).trans ?_
  decide

end Cache

end ConnectionBroker
