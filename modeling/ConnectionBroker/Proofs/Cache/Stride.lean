import Mathlib.Logic.Function.Basic
import ConnectionBroker.Proofs.Cache.Stretch

/-!
# Strides

A step of the cache is a few `Stride`s : the world changes, the rows change places, the sweeper is
set, a call begins or goes on for a stretch, a call is cancelled. Between strides every call has
in hand what its activity says (`Cache.hands`), and within the stretch of a call only that call's
hand changes. An invariant that speaks of the tables and of the hands is therefore proved for
single moves and for cancelled calls (`Kept`), and holds after every stride (`Kept.stride`).

What needs no hands is proved for strides at once : operations and results are final
(`Stride.keeps_call`), the journal only grows (`Stride.journal`), every activity is one of its
call's operation (`Stride.attuned`), and every deed is one that its call can do
(`Stride.accounted`).
-/

namespace ConnectionBroker

namespace Cache

open Relation (ReflTransGen)

variable {id : CallId} {op : Operation} {c c' : Cache} {call : Call} {P : Call → Prop}

/-! ## Hands -/

/-- What a call has in hand : nothing before it begins and after it has ended. -/
def hands (c : Cache) (id : CallId) : Hand :=
  ((c.activity? id).map Activity.hand).getD {}

theorem hands_congr (h : c'.calls = c.calls) : c'.hands = c.hands := by
  funext id
  simp [hands, activity?, h]

theorem hands_of_call (h : c.calls[id]? = some call) : c.hands id = call.activity.hand := by
  simp [hands, activity?, h]

theorem hands_length (c : Cache) : c.hands c.calls.length = {} := by
  simp [hands, activity?]

theorem hands_setActivity (h : c.calls[id]? = some call) (a : Activity) :
    (c.setActivity id a).hands = Function.update c.hands id a.hand := by
  funext i
  by_cases hi : i = id
  · subst hi
    simp [hands, activity?, setActivity, h]
  · rw [Function.update_of_ne hi]
    simp [hands, activity?, setActivity, Ne.symm hi]

theorem hands_append (c : Cache) (op : Operation) (a : Activity) :
    ({ c with calls := c.calls ++ [⟨op, a⟩] } : Cache).hands =
      Function.update c.hands c.calls.length a.hand := by
  funext i
  by_cases hi : i = c.calls.length
  · subst hi
    simp [hands, activity?]
  · rw [Function.update_of_ne hi]
    simp only [hands, activity?, getElem?_append_of_ne _ hi]

/-- A call that has not begun has nothing in hand. -/
theorem update_hands_length (c : Cache) : Function.update c.hands c.calls.length {} = c.hands := by
  rw [← hands_length c, Function.update_eq_self]

/-- Between strides a call has in hand what its activity says. -/
theorem update_hands_of_call (h : c.calls[id]? = some call) :
    Function.update c.hands id call.activity.hand = c.hands := by
  rw [← hands_of_call h, Function.update_eq_self]

/-- What holds of no new hand but those of which it held before, holds of no new hands when one
hand is changed. -/
theorem update_imp {P : Hand → Prop} {h h' : Hand} {H : CallId → Hand} (hP : P h' → P h)
    {i : CallId} (hi : P (Function.update H id h' i)) : P (Function.update H id h i) := by
  by_cases h : i = id
  · subst h
    simp only [Function.update_self] at hi ⊢
    exact hP hi
  · rwa [Function.update_of_ne h] at hi ⊢

theorem abort_of_call (h : c.calls[id]? = some call) (hlive : ∀ r, call.activity ≠ .ended r) :
    c.abort id = ((letGo id c call.activity).abandon id
      (call.activity.releasing?.toList ++ call.activity.claimed)).setActivity id
        (.ended .aborted) := by
  have ha : c.activity? id = some call.activity := by simp [activity?, h]
  unfold abort
  rw [ha]
  split <;> simp_all

/-- What a cancelled call does to its slot leaves everything but the slots alone. -/
theorem letGo_eq (id : CallId) (c : Cache) (a : Activity) :
    ∃ slots, letGo id c a = { c with slots } := by
  unfold letGo
  split
  · exact ⟨_, rfl⟩
  · split <;> exact ⟨_, rfl⟩
  · exact ⟨_, rfl⟩

/-! ## What moves leave alone -/

/-- A move leaves the calls and the sweeper alone and enters what it does in the journal. -/
theorem move_frame {h h' : Hand} (hm : Move id op (c, h) (c', h')) :
    c'.calls = c.calls ∧ c'.sweeper = c.sweeper ∧
      ∃ ds : List Deed, (∀ d ∈ ds, d.Allowed op) ∧ c'.journal = c.journal ++ ds.map (id, ·) := by
  cases hm with
  | round key => exact ⟨rfl, rfl, [.round key], by simp [Deed.Allowed], rfl⟩
  | keep he =>
    obtain ⟨net, hnet, -⟩ := c.checkEntry_eq _
    rw [hnet]
    exact ⟨rfl, rfl, [], by simp, by simp⟩
  | touch he hopen hfresh =>
    obtain ⟨net, hnet, -⟩ := c.checkEntry_eq _
    rw [hnet]
    exact ⟨rfl, rfl, [], by simp, by simp [setEntry]⟩
  | evict hrow hready he hopen hstale =>
    obtain ⟨net, hnet, -⟩ := c.checkEntry_eq _
    rw [hnet]
    exact ⟨rfl, rfl, [.claim _, .forget _], by simp [Deed.Allowed], List.append_assoc _ _ _⟩
  | forget hrow ho hclosed => exact ⟨rfl, rfl, [.forget _], by simp [Deed.Allowed], rfl⟩
  | withdraw hrow hop => exact ⟨rfl, rfl, [.withdraw _ _], by simpa [Deed.Allowed], rfl⟩
  | claim hslot hready he hopen => exact ⟨rfl, rfl, [.claim _], by simp [Deed.Allowed], rfl⟩
  | tell hr hc =>
    obtain ⟨net, hnet⟩ := c.beginRelease_eq id _
    rw [hnet]
    exact ⟨rfl, rfl, [.tellService _], by simp [Deed.Allowed], rfl⟩
  | finish hr =>
    obtain ⟨net, hnet⟩ := c.endRelease_eq id _
    rw [hnet]
    exact ⟨rfl, rfl, [.serviceClosed _, .closeHop _], by simp [Deed.Allowed], rfl⟩
  | place hnone =>
    rw [slotFor_of_none hnone]
    exact ⟨rfl, rfl, [], by simp, by simp⟩
  | build hcur hb ho => exact ⟨rfl, rfl, [.build _], by simp [Deed.Allowed], rfl⟩
  | promote hw hb ho => exact ⟨rfl, rfl, [.build _], by simp [Deed.Allowed], rfl⟩
  | skip | queue | leave | settle | fail | panic =>
    exact ⟨rfl, rfl, [], by simp, by simp [enqueue, conclude, passOn, updateSlot]⟩

theorem moves_frame {s s' : Cache × Hand} (hm : Moves id op s s') :
    s'.1.calls = s.1.calls ∧ s'.1.sweeper = s.1.sweeper ∧
      ∃ ds : List Deed, (∀ d ∈ ds, d.Allowed op) ∧
        s'.1.journal = s.1.journal ++ ds.map (id, ·) := by
  induction hm with
  | refl => exact ⟨rfl, rfl, [], by simp, by simp⟩
  | tail _ hm ih =>
    obtain ⟨hcalls, hsweeper, ds, hds, hj⟩ := ih
    obtain ⟨hcalls', hsweeper', ds', hds', hj'⟩ := move_frame hm
    refine ⟨hcalls'.trans hcalls, hsweeper'.trans hsweeper, ds ++ ds', ?_, ?_⟩
    · intro d hd
      exact (List.mem_append.1 hd).elim (hds d) (hds' d)
    · rw [hj', hj, List.map_append, List.append_assoc]

/-! ## Strides -/

/-- A part of a step, where only calls of which `P` holds are cancelled. -/
inductive Stride (P : Call → Prop) : Cache → Cache → Prop
  /-- The world around the cache changes. -/
  | world {c : Cache} (net : Network) (hnow : c.net.now ≤ net.now) : Stride P c { c with net }
  /-- The rows change places. -/
  | reorder {c : Cache} {rows : List (Fingerprint × SlotId)} (hrows : rows.Perm c.current) :
    Stride P c { c with current := rows }
  /-- The sweeper is set. What it runs is a sweep. -/
  | sweeper {c : Cache} {s : Option Sweeper}
    (hs : ∀ s' id, s = some s' → s'.running = some id →
      ∃ call, c.calls[id]? = some call ∧ call.operation = .sweep) :
    Stride P c { c with sweeper := s }
  /-- A call begins. -/
  | start {c c' : Cache} {op : Operation} {a : Activity}
    (hp : Performs c.calls.length op (c, {}) (a, c')) :
    Stride P c { c' with calls := c'.calls ++ [⟨op, a⟩] }
  /-- A call goes on. -/
  | resume {c c' : Cache} {id : CallId} {call : Call} {a : Activity}
    (hcall : c.calls[id]? = some call) (hlive : ∀ r, call.activity ≠ .ended r)
    (hp : Resumes id call.operation (c, call.activity.hand) (a, c')) :
    Stride P c (c'.setActivity id a)
  /-- A call is cancelled. -/
  | cancel {c : Cache} {id : CallId} {call : Call} (hcall : c.calls[id]? = some call)
    (hlive : ∀ r, call.activity ≠ .ended r) (hfit : call.activity.Fits call.operation)
    (hP : P call) :
    Stride P c (c.abort id)

/-- Some strides, one after the other. -/
abbrev Strides (P : Call → Prop) : Cache → Cache → Prop :=
  Relation.ReflTransGen (Stride P)

/-- An invariant of the tables and the hands that moves keep, that cancelling a call keeps, and
that does not depend on the rest of the cache. -/
structure Kept (P : Call → Prop) (I : Cache → (CallId → Hand) → Prop) : Prop where
  move : ∀ {id : CallId} {op : Operation} {c c' : Cache} {h h' : Hand} {H : CallId → Hand},
    Move id op (c, h) (c', h') → I c (Function.update H id h) → I c' (Function.update H id h')
  cancel : ∀ {c : Cache} {id : CallId} {call : Call}, c.calls[id]? = some call →
    call.activity.Fits call.operation → P call → I c c.hands →
      I ((letGo id c call.activity).abandon id
        (call.activity.releasing?.toList ++ call.activity.claimed)) (Function.update c.hands id {})
  frame : ∀ {c c' : Cache} {H : CallId → Hand}, c'.current.Perm c.current → c'.slots = c.slots →
    c'.entries = c.entries → c'.journal = c.journal → I c H → I c' H

namespace Kept

variable {I : Cache → (CallId → Hand) → Prop}

theorem moves (hk : Kept P I) {s s' : Cache × Hand} {H : CallId → Hand} (hm : Moves id op s s')
    (h : I s.1 (Function.update H id s.2)) : I s'.1 (Function.update H id s'.2) := by
  induction hm with
  | refl => exact h
  | tail _ hm ih => exact hk.move hm ih

/-- What moves and cancelled calls keep holds after every stride. -/
theorem stride (hk : Kept P I) (hs : Stride P c c') (h : I c c.hands) : I c' c'.hands := by
  cases hs with
  | world net hnow => exact hk.frame (c := c) (.refl _) rfl rfl rfl h
  | reorder hrows => exact hk.frame (c := c) hrows rfl rfl rfl h
  | sweeper hs => exact hk.frame (c := c) (.refl _) rfl rfl rfl h
  | @start c' op a hp =>
    have hcalls := (moves_frame hp.moves).1
    have hend : I c' (Function.update c.hands c.calls.length a.hand) :=
      hk.moves hp.moves (by rwa [update_hands_length])
    rw [hands_append, hands_congr hcalls, show c'.calls = c.calls from hcalls]
    exact hk.frame (c := c') (.refl _) rfl rfl rfl hend
  | @resume c' id call a hcall hlive hp =>
    have hcalls := (moves_frame hp.moves).1
    have hend : I c' (Function.update c.hands id a.hand) :=
      hk.moves hp.moves (by rwa [update_hands_of_call hcall])
    have hcall' : c'.calls[id]? = some call := by rw [show c'.calls = c.calls from hcalls, hcall]
    rw [hands_setActivity hcall', hands_congr hcalls]
    exact hk.frame (c := c') (.refl _) rfl rfl rfl hend
  | @cancel id call hcall hlive hfit hP =>
    obtain ⟨slots, hlet⟩ := letGo_eq id c call.activity
    have hend := hk.cancel hcall hfit hP h
    rw [hlet] at hend
    have hcall' : (({ c with slots }).abandon id
        (call.activity.releasing?.toList ++ call.activity.claimed)).calls[id]? = some call := hcall
    rw [abort_of_call hcall hlive, hlet, hands_setActivity hcall']
    exact hk.frame (c := ({ c with slots }).abandon id _) (.refl _) rfl rfl rfl hend

theorem strides (hk : Kept P I) (hs : Strides P c c') (h : I c c.hands) : I c' c'.hands := by
  induction hs with
  | refl => exact h
  | tail _ hs ih => exact hk.stride hs ih

end Kept

/-! ## What is final -/

/-- Setting the activity of a call that has not ended changes no operation and no result. -/
theorem call_setActivity {i : CallId} {live : Call} (hi : c.calls[i]? = some live)
    (hlive : ∀ r, live.activity ≠ .ended r) (a : Activity) (hcall : c.calls[id]? = some call) :
    ∃ call', (c.setActivity i a).calls[id]? = some call' ∧ call'.operation = call.operation ∧
      ∀ r, call.activity = .ended r → call' = call := by
  by_cases h : i = id
  · subst h
    obtain rfl : live = call := Option.some.inj (hi.symm.trans hcall)
    exact ⟨{ live with activity := a }, by simp [setActivity, hi], rfl, fun r hr =>
      absurd hr (hlive r)⟩
  · exact ⟨call, by simp [setActivity, h, hcall], rfl, fun _ _ => rfl⟩

theorem calls_abort (hcall : c.calls[id]? = some call) (hlive : ∀ r, call.activity ≠ .ended r) :
    (c.abort id).calls = (c.setActivity id (.ended .aborted)).calls := by
  obtain ⟨slots, hlet⟩ := letGo_eq id c call.activity
  rw [abort_of_call hcall hlive, hlet]
  rfl

theorem journal_abort (hcall : c.calls[id]? = some call)
    (hlive : ∀ r, call.activity ≠ .ended r) :
    (c.abort id).journal = c.journal ++
      (call.activity.releasing?.toList ++ call.activity.claimed).map fun e => (id, .abandon e) := by
  obtain ⟨slots, hlet⟩ := letGo_eq id c call.activity
  rw [abort_of_call hcall hlive, hlet]
  rfl

/-- A call keeps its operation, and once it has ended it stays as it is. -/
theorem Stride.keeps_call (hs : Stride P c c') (hcall : c.calls[id]? = some call) :
    ∃ call', c'.calls[id]? = some call' ∧ call'.operation = call.operation ∧
      ∀ r, call.activity = .ended r → call' = call := by
  cases hs with
  | world | reorder | sweeper => exact ⟨call, hcall, rfl, fun _ _ => rfl⟩
  | @start c' op a hp =>
    have hcalls : c'.calls = c.calls := (moves_frame hp.moves).1
    obtain ⟨hid, -⟩ := List.getElem?_eq_some_iff.1 hcall
    exact ⟨call, by rw [hcalls, List.getElem?_append_left hid, hcall], rfl, fun _ _ => rfl⟩
  | @resume c' i live a hi hlive hp =>
    have hcalls : c'.calls = c.calls := (moves_frame hp.moves).1
    exact call_setActivity (by rw [hcalls, hi]) hlive a (by rw [hcalls, hcall])
  | @cancel i live hi hlive hfit hP =>
    rw [calls_abort hi hlive]
    exact call_setActivity hi hlive _ hcall

theorem Strides.keeps_call (hs : Strides P c c') (hcall : c.calls[id]? = some call) :
    ∃ call', c'.calls[id]? = some call' ∧ call'.operation = call.operation ∧
      ∀ r, call.activity = .ended r → call' = call := by
  induction hs with
  | refl => exact ⟨call, hcall, rfl, fun _ _ => rfl⟩
  | tail _ hs ih =>
    obtain ⟨call', hcall', hop, hend⟩ := ih
    obtain ⟨call'', hcall'', hop', hend'⟩ := hs.keeps_call hcall'
    refine ⟨call'', hcall'', hop'.trans hop, fun r hr => ?_⟩
    obtain rfl := hend r hr
    exact hend' r hr

/-- The result of a call is final. -/
theorem Strides.result? {r : Result} (hs : Strides P c c') (h : c.result? id = some r) :
    c'.result? id = some r := by
  obtain ⟨call, hcall, hr⟩ : ∃ call, c.calls[id]? = some call ∧ call.activity = .ended r := by
    unfold Cache.result? activity? at h
    cases hcall : c.calls[id]? with
    | none => simp [hcall] at h
    | some call =>
      rw [hcall] at h
      refine ⟨call, rfl, ?_⟩
      split at h <;> simp_all
  obtain ⟨call', hcall', -, hend⟩ := hs.keeps_call hcall
  obtain rfl := hend r hr
  simp [Cache.result?, activity?, hcall', hr]

/-- What a stride enters in the journal : nothing, what one call does of its own accord, or what a
cancelled call abandons. -/
theorem Stride.journal_cases (hs : Stride P c c') :
    c'.journal = c.journal ∨
    (∃ (id : CallId) (call : Call) (ds : List Deed), c'.calls[id]? = some call ∧
      (∀ d ∈ ds, d.Allowed call.operation) ∧ c'.journal = c.journal ++ ds.map (id, ·)) ∨
    ∃ (id : CallId) (call : Call) (es : List EntryId), P call ∧
      c'.calls[id]? = some { call with activity := .ended .aborted } ∧
        c'.journal = c.journal ++ es.map fun e => (id, .abandon e) := by
  cases hs with
  | world | reorder | sweeper => exact .inl rfl
  | @start c' op a hp =>
    obtain ⟨hcalls, -, ds, hds, hj⟩ := moves_frame hp.moves
    exact .inr (.inl ⟨_, ⟨op, a⟩, ds, by simp [show c'.calls = c.calls from hcalls], hds, hj⟩)
  | @resume c' i call a hcall hlive hp =>
    obtain ⟨hcalls, -, ds, hds, hj⟩ := moves_frame hp.moves
    refine .inr (.inl ⟨i, { call with activity := a }, ds, ?_, hds, hj⟩)
    simp [setActivity, show c'.calls = c.calls from hcalls, hcall]
  | @cancel i call hcall hlive hfit hP =>
    refine .inr (.inr ⟨i, call, _, hP, ?_, journal_abort hcall hlive⟩)
    simp [calls_abort hcall hlive, setActivity, hcall]

/-- The journal only grows. -/
theorem Stride.journal (hs : Stride P c c') : c.journal <+: c'.journal := by
  rcases hs.journal_cases with hj | ⟨_, _, _, _, _, hj⟩ | ⟨_, _, _, _, _, hj⟩
  · exact hj ▸ List.prefix_rfl
  · exact ⟨_, hj.symm⟩
  · exact ⟨_, hj.symm⟩

theorem Strides.journal (hs : Strides P c c') : c.journal <+: c'.journal := by
  induction hs with
  | refl => exact List.prefix_rfl
  | tail _ hs ih => exact ih.trans hs.journal

/-! ## Calls, operations and deeds -/

/-- Every activity is one of its call's operation, and the sweeper runs sweeps. -/
structure Attuned (c : Cache) : Prop where
  fits : ∀ call ∈ c.calls, call.activity.Fits call.operation
  sweeps : ∀ s id, c.sweeper = some s → s.running = some id →
    ∃ call, c.calls[id]? = some call ∧ call.operation = .sweep

theorem fits_ended (op : Operation) (r : Result) : (Activity.ended r).Fits op := by
  cases op <;> trivial

/-- Every call's activity fits after that of one call is set to one that fits. -/
theorem fits_setActivity (hfits : ∀ call ∈ c.calls, call.activity.Fits call.operation)
    (hcall : c.calls[id]? = some call) {a : Activity} (ha : a.Fits call.operation) :
    ∀ call ∈ (c.setActivity id a).calls, call.activity.Fits call.operation := by
  intro call' hmem
  obtain ⟨i, hi⟩ := List.mem_iff_getElem?.1 hmem
  rw [setActivity, List.getElem?_modify] at hi
  by_cases h : id = i
  · subst h
    obtain rfl : { call with activity := a } = call' := by simpa [hcall] using hi
    exact ha
  · exact hfits call' (List.mem_iff_getElem?.2 ⟨i, by simpa [h] using hi⟩)

theorem Stride.attuned (hs : Stride P c c') (hc : c.Attuned) : c'.Attuned := by
  have hsweeps : c'.sweeper = c.sweeper → ∀ s id, c'.sweeper = some s → s.running = some id →
      ∃ call, c'.calls[id]? = some call ∧ call.operation = .sweep := by
    intro hsweeper s id hsome hrunning
    obtain ⟨call, hcall, hop⟩ := hc.sweeps s id (hsweeper ▸ hsome) hrunning
    obtain ⟨call', hcall', hop', -⟩ := hs.keeps_call hcall
    exact ⟨call', hcall', hop'.trans hop⟩
  cases hs with
  | world net hnow => exact ⟨hc.fits, hc.sweeps⟩
  | reorder hrows => exact ⟨hc.fits, hc.sweeps⟩
  | sweeper hs => exact ⟨hc.fits, fun s id hsome => hs s id hsome⟩
  | @start c' op a hp =>
    obtain ⟨hcalls, hsweeper, -⟩ := moves_frame hp.moves
    refine ⟨fun call hcall => ?_, hsweeps hsweeper⟩
    rcases List.mem_append.1 hcall with hcall | hcall
    · exact hc.fits call (hcalls ▸ hcall)
    · obtain rfl := List.mem_singleton.1 hcall
      exact hp.fits
  | @resume c' i call a hcall hlive hp =>
    obtain ⟨hcalls, hsweeper, -⟩ := moves_frame hp.moves
    have hcalls : c'.calls = c.calls := hcalls
    exact ⟨fits_setActivity (by rw [hcalls]; exact hc.fits) (by rw [hcalls, hcall]) hp.fits,
      hsweeps hsweeper⟩
  | @cancel i call hcall hlive hfit hP =>
    refine ⟨?_, hsweeps ?_⟩
    · rw [calls_abort hcall hlive]
      exact fits_setActivity hc.fits hcall (fits_ended _ _)
    · obtain ⟨slots, hlet⟩ := letGo_eq i c call.activity
      rw [abort_of_call hcall hlive, hlet]
      rfl

/-- Every deed in the journal is one of a call that can do it : who withdraws a slot carries out
an operation that closes its key, and who abandons an entry was cancelled. -/
def Accounted (c : Cache) : Prop :=
  ∀ id d, (id, d) ∈ c.journal → ∃ call, c.calls[id]? = some call ∧
    (∀ key slot, d = .withdraw key slot → call.operation.Closes key) ∧
    ∀ e, d = .abandon e → call.activity = .ended .aborted

theorem Stride.accounted (hs : Stride P c c') (hc : c.Accounted) : c'.Accounted := by
  have hold : ∀ id d, (id, d) ∈ c.journal → ∃ call, c'.calls[id]? = some call ∧
      (∀ key slot, d = .withdraw key slot → call.operation.Closes key) ∧
      ∀ e, d = .abandon e → call.activity = .ended .aborted := by
    intro id d hd
    obtain ⟨call, hcall, hw, ha⟩ := hc id d hd
    obtain ⟨call', hcall', hop, hend⟩ := hs.keeps_call hcall
    refine ⟨call', hcall', fun key slot h => hop ▸ hw key slot h, fun e h => ?_⟩
    rw [hend _ (ha e h), ha e h]
  intro id d hd
  rcases hs.journal_cases with hj | ⟨i, call, ds, hcall, hds, hj⟩ | ⟨i, call, es, -, hcall, hj⟩ <;>
    rw [hj] at hd
  · exact hold id d hd
  · rcases List.mem_append.1 hd with hd | hd
    · exact hold id d hd
    · obtain ⟨d', hd', heq⟩ := List.mem_map.1 hd
      obtain ⟨rfl, rfl⟩ := Prod.mk.inj heq
      have hallowed := hds d' hd'
      refine ⟨call, hcall, fun key slot h => ?_, fun e h => ?_⟩
      · simpa [h, Deed.Allowed] using hallowed
      · simp [h, Deed.Allowed] at hallowed
  · rcases List.mem_append.1 hd with hd | hd
    · exact hold id d hd
    · obtain ⟨e, -, heq⟩ := List.mem_map.1 hd
      obtain ⟨rfl, rfl⟩ := Prod.mk.inj heq
      exact ⟨_, hcall, by simp, fun _ _ => rfl⟩

end Cache

end ConnectionBroker
