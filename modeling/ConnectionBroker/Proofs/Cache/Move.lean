import Mathlib.Logic.Relation
import ConnectionBroker.Cache.Step

/-!
# What a call can do in one stretch

Between two waits a call does a handful of things, over and over : it looks at an entry, takes a
row out of the map, claims an entry, tells a service to close. A `Move` is one of them, with the
conditions under which the call does it. What the call has to remember from one move to the next
is its `Hand` : the entries that it has claimed, the slots that it took out of the map, the slot
where it builds or waits.

Every stretch is a chain of moves that ends with the hand of the activity that the call goes on
with (`Performs`). A fact about the cache is proved move by move, and no operation has to be opened
for it. What a call returns cannot be read off its hand, so `Performs` also says what a service
that is returned was found to be (`Serves`).
-/

namespace ConnectionBroker

/-! ## Hands -/

/-- What a call has in hand. -/
structure Hand where
  /-- The entry whose service it has told to close. -/
  releasing : Option EntryId := none
  /-- The entries that it has claimed and not begun to release. -/
  claimed : List EntryId := []
  /-- The slots that it found outside the map or took out of it, and has yet to look at. -/
  drained : List SlotId := []
  /-- The slot where its factory call is in progress, with the key. -/
  building : Option (Fingerprint × SlotId) := none
  /-- The slot where it waits, with the key. -/
  waiting : Option (Fingerprint × SlotId) := none

namespace Activity

/-- The slot where a call builds. -/
def building : Activity → Option (Fingerprint × SlotId)
  | .getting key _ (.building slot) => some (key, slot)
  | _ => none

/-- The slot where a call waits. -/
def waiting : Activity → Option (Fingerprint × SlotId)
  | .getting key _ (.waiting slot) => some (key, slot)
  | _ => none

/-- What a call has in hand while it waits. -/
def hand (a : Activity) : Hand :=
  ⟨a.releasing?, a.claimed, a.drained, a.building, a.waiting⟩

/-- A call that has told a service to close builds nothing. -/
theorem building_of_releasing {a : Activity} {e : EntryId} (h : a.releasing? = some e) :
    a.hand.building = none := by
  cases a with
  | getting key left phase => cases phase <;> first | rfl | cases h
  | _ => rfl

/-- The activity is one of the operation. -/
def Fits : Operation → Activity → Prop
  | _, .ended _ => True
  | .get key, .getting key' _ _ => key' = key
  | .touch _, .dropping _ => True
  | .sweep, .sweeping _ _ _ => True
  | .close _, .closing _ => True
  | .closeAll, .draining _ _ _ => True
  | .shutdown, .draining _ _ _ => True
  | _, _ => False

theorem Fits.drained {op : Operation} {a : Activity} (h : a.Fits op) (hd : a.hand.drained ≠ []) :
    op = .closeAll ∨ op = .shutdown := by
  cases a <;> cases op <;> simp_all [hand, Activity.drained, Fits]

theorem Fits.building {op : Operation} {a : Activity} (h : a.Fits op) {key : Fingerprint}
    {slot : SlotId} (hb : a.hand.building = some (key, slot)) : op = .get key := by
  cases a with
  | getting key' left phase =>
    cases phase <;> cases op <;> simp_all [hand, Activity.building, Fits]
  | _ => simp [hand, Activity.building] at hb

end Activity

/-- The operation takes the slot of a key out of the map, whatever is in it. -/
def Operation.Closes : Operation → Fingerprint → Prop
  | .close key, key' => key' = key
  | .closeAll, _ => True
  | .shutdown, _ => True
  | _, _ => False

/-- A call that carries out the operation does the deed of its own accord. What it claimed it does
not abandon. -/
def Deed.Allowed (op : Operation) : Deed → Prop
  | .withdraw key _ => op.Closes key
  | .abandon _ => False
  | _ => True

/-- The slot, unless it is the one that its key has now. -/
def Cache.outside (c : Cache) (key : Fingerprint) (slot : SlotId) : List SlotId :=
  if c.isCurrent key slot then [] else [slot]

/-! ## Moves -/

/-- One move of a call that carries out an operation : the cache and the hand before and after. -/
inductive Move (id : CallId) (op : Operation) : Cache × Hand → Cache × Hand → Prop
  /-- Begins a round. -/
  | round {c : Cache} {h : Hand} (key : Fingerprint) :
    Move id op (c, h) (c.note id (.round key), h)
  /-- Asks the hop of an entry whether it is alive, and lets the entry be. -/
  | keep {c : Cache} {h : Hand} {e : EntryId} {entry : Entry} (he : c.entries[e]? = some entry) :
    Move id op (c, h) ((c.checkEntry entry).2, h)
  /-- Uses an entry that is not stale. -/
  | touch {c : Cache} {h : Hand} {e : EntryId} {entry : Entry} (he : c.entries[e]? = some entry)
    (hopen : entry.closed = false)
    (hfresh : entry.isStale c.net.now (c.checkEntry entry).1 = false) :
    Move id op (c, h)
      ((c.checkEntry entry).2.setEntry e { entry with lastUse := c.net.now }, h)
  /-- Claims a stale entry of the map and takes its row out. -/
  | evict {c : Cache} {h : Hand} {pre post : List (Fingerprint × SlotId)} {key : Fingerprint}
    {slot : SlotId} {e : EntryId} {entry : Entry} (hrow : c.current = pre ++ (key, slot) :: post)
    (hready : c.ready? slot = some e) (he : c.entries[e]? = some entry)
    (hopen : entry.closed = false)
    (hstale : entry.isStale c.net.now (c.checkEntry entry).1 = true) :
    Move id op (c, h)
      ({ (((c.checkEntry entry).2.setEntry e { entry with closed := true }).note id
            (.claim e)).note id (.forget slot) with current := pre ++ post },
        { h with claimed := h.claimed ++ [e] })
  /-- Takes a row out whose build failed or whose entry is closed. -/
  | forget {c : Cache} {h : Hand} {pre post : List (Fingerprint × SlotId)} {key : Fingerprint}
    {slot : SlotId} {o : Outcome} (hrow : c.current = pre ++ (key, slot) :: post)
    (ho : c.outcome? slot = some o) (hclosed : ∀ e, o = .ready e → c.isOpen e = false) :
    Move id op (c, h) ({ c.note id (.forget slot) with current := pre ++ post }, h)
  /-- Takes a row out on request. -/
  | withdraw {c : Cache} {h : Hand} {pre post : List (Fingerprint × SlotId)} {key : Fingerprint}
    {slot : SlotId} (hrow : c.current = pre ++ (key, slot) :: post) (hop : op.Closes key) :
    Move id op (c, h)
      ({ c.note id (.withdraw key slot) with current := pre ++ post },
        { h with drained := h.drained ++ [slot] })
  /-- Claims the entry of a slot outside the map. -/
  | claim {c : Cache} {h : Hand} {slot : SlotId} {e : EntryId} {entry : Entry}
    (hslot : slot ∈ h.drained) (hready : c.ready? slot = some e)
    (he : c.entries[e]? = some entry) (hopen : entry.closed = false) :
    Move id op (c, h)
      ((c.setEntry e { entry with closed := true }).note id (.claim e),
        { h with claimed := h.claimed ++ [e] })
  /-- Has done with a slot outside the map that has no open entry. -/
  | skip {c : Cache} {h : Hand} {slot : SlotId} {rest : List SlotId}
    (hslot : h.drained = slot :: rest)
    (hclosed : ∀ e, c.ready? slot = some e → c.isOpen e = false) :
    Move id op (c, h) (c, { h with drained := rest })
  /-- Begins to release the first of the entries that it has claimed. -/
  | tell {c : Cache} {h : Hand} {e : EntryId} {rest : List EntryId} (hr : h.releasing = none)
    (hc : h.claimed = e :: rest) :
    Move id op (c, h) (c.beginRelease id e, { h with releasing := some e, claimed := rest })
  /-- Ends a release, once the service is closed. -/
  | finish {c : Cache} {h : Hand} {e : EntryId} (hr : h.releasing = some e) :
    Move id op (c, h) (c.endRelease id e, { h with releasing := none })
  /-- Makes a slot for a key that has none. -/
  | place {c : Cache} {h : Hand} {key : Fingerprint} (hnone : c.current.lookup key = none) :
    Move id op (c, h) ((c.slotFor key).2, h)
  /-- Begins to build in a slot of the map where nobody does. -/
  | build {c : Cache} {h : Hand} {key : Fingerprint} {slot : SlotId}
    (hcur : c.isCurrent key slot = true) (hb : c.builder? slot = none)
    (ho : c.outcome? slot = none) :
    Move id op (c, h)
      ((c.setBuilder slot id).note id (.build slot), { h with building := some (key, slot) })
  /-- Waits at a slot of the map where somebody else builds. -/
  | queue {c : Cache} {h : Hand} {key : Fingerprint} {slot : SlotId}
    (hcur : c.isCurrent key slot = true) (hb : (c.builder? slot).isSome)
    (ho : c.outcome? slot = none) :
    Move id op (c, h) (c.enqueue slot id, { h with waiting := some (key, slot) })
  /-- Begins to build after waiting, with the right that was passed on to it. -/
  | promote {c : Cache} {h : Hand} {key : Fingerprint} {slot : SlotId}
    (hw : h.waiting = some (key, slot)) (hb : c.builder? slot = some id)
    (ho : c.outcome? slot = none) :
    Move id op (c, h)
      (c.note id (.build slot), { h with waiting := none, building := some (key, slot) })
  /-- Has waited for the outcome of a slot. -/
  | leave {c : Cache} {h : Hand} {key : Fingerprint} {slot : SlotId} {o : Outcome}
    (hw : h.waiting = some (key, slot)) (ho : c.outcome? slot = some o) :
    Move id op (c, h) (c, { h with waiting := none, drained := c.outside key slot ++ h.drained })
  /-- Has built an entry. -/
  | settle {c : Cache} {h : Hand} {key : Fingerprint} {slot : SlotId} (r : Resource)
    (hb : h.building = some (key, slot)) :
    Move id op (c, h)
      ({ c with entries := c.entries ++ [Entry.fresh key r c.net.now c.ttl] }.conclude slot
          (.ready c.entries.length),
        { h with building := none, drained := c.outside key slot ++ h.drained })
  /-- Has failed to build. -/
  | fail {c : Cache} {h : Hand} {key : Fingerprint} {slot : SlotId} (err : BrokerError)
    (hb : h.building = some (key, slot)) :
    Move id op (c, h)
      (c.conclude slot (.failed err),
        { h with building := none, drained := c.outside key slot ++ h.drained })
  /-- Has panicked while building. -/
  | panic {c : Cache} {h : Hand} {key : Fingerprint} {slot : SlotId}
    (hb : h.building = some (key, slot)) :
    Move id op (c, h) (c.passOn slot, { h with building := none })

/-- Some moves of a call, one after the other. -/
abbrev Moves (id : CallId) (op : Operation) : Cache × Hand → Cache × Hand → Prop :=
  Relation.ReflTransGen (Move id op)

/-- Some moves of a call that has no factory call in progress : it builds nothing. -/
abbrev Walk (id : CallId) (op : Operation) : Cache × Hand → Cache × Hand → Prop :=
  Relation.ReflTransGen fun s s' => s.2.building = none ∧ Move id op s s'

theorem Walk.moves {id : CallId} {op : Operation} {s s' : Cache × Hand} (h : Walk id op s s') :
    Moves id op s s' :=
  Relation.ReflTransGen.mono (fun _ _ h => h.2) _ _ h

/-- The last thing that a `get` does before it returns a service : it finds the entry under its
key, open and not stale, and uses it. -/
structure Serves (id : CallId) (op : Operation) (s : Cache × Hand) (c' : Cache) (key : Fingerprint)
    (m : Cache) (e : EntryId) (entry : Entry) : Prop where
  asked : op = .get key
  reached : Moves id op s (m, {})
  found : m.find? key = some e
  entry_eq : m.entries[e]? = some entry
  fresh : entry.isStale m.net.now (m.checkEntry entry).1 = false
  used : c' = (m.checkEntry entry).2.setEntry e { entry with lastUse := m.net.now }

/-- A stretch of a call is a walk from a cache and a hand to the cache that it leaves and the hand
of the activity that it goes on with. If it ends with a service, it has just used its entry. -/
structure Performs (id : CallId) (op : Operation) (s : Cache × Hand) (r : Activity × Cache) :
    Prop where
  walk : Walk id op s (r.2, r.1.hand)
  fits : r.1.Fits op
  serves : ∀ service, r.1 = .ended (.service service) →
    ∃ key m e entry, Serves id op s r.2 key m e entry ∧ entry.resource.service = service

namespace Performs

variable {id : CallId} {op : Operation} {s s' : Cache × Hand} {r : Activity × Cache}

theorem moves (hp : Performs id op s r) : Moves id op s (r.2, r.1.hand) :=
  hp.walk.moves

/-- A stretch of which it is plain that it ends with no service. -/
theorem of_walk (hw : Walk id op s (r.2, r.1.hand)) (hfit : r.1.Fits op)
    (hno : ∀ service, r.1 ≠ .ended (.service service)) : Performs id op s r :=
  ⟨hw, hfit, fun service h => absurd h (hno service)⟩

theorem trans (hw : Walk id op s s') (hp : Performs id op s' r) : Performs id op s r := by
  refine ⟨hw.trans hp.walk, hp.fits, fun service h => ?_⟩
  obtain ⟨key, m, e, entry, hs, hservice⟩ := hp.serves service h
  exact ⟨key, m, e, entry, { hs with reached := hw.moves.trans hs.reached }, hservice⟩

theorem of_move (hb : s.2.building = none) (hm : Move id op s s') (hp : Performs id op s' r) :
    Performs id op s r :=
  .trans (.single ⟨hb, hm⟩) hp

end Performs

/-- A stretch of a call whose wait is over : the end of a factory call comes before the walk. -/
def Resumes (id : CallId) (op : Operation) (s : Cache × Hand) (r : Activity × Cache) : Prop :=
  ∃ s', Moves id op s s' ∧ Performs id op s' r

namespace Resumes

variable {id : CallId} {op : Operation} {s s' : Cache × Hand} {r : Activity × Cache}

theorem of_performs (hp : Performs id op s r) : Resumes id op s r :=
  ⟨s, .refl, hp⟩

theorem of_move (hm : Move id op s s') (hp : Performs id op s' r) : Resumes id op s r :=
  ⟨s', .single hm, hp⟩

theorem moves : Resumes id op s r → Moves id op s (r.2, r.1.hand)
  | ⟨_, hm, hp⟩ => hm.trans hp.moves

theorem fits : Resumes id op s r → r.1.Fits op
  | ⟨_, _, hp⟩ => hp.fits

theorem serves (hp : Resumes id op s r) (service : ServiceId)
    (h : r.1 = .ended (.service service)) :
    ∃ key m e entry, Serves id op s r.2 key m e entry ∧ entry.resource.service = service := by
  obtain ⟨s', hm, hp⟩ := hp
  obtain ⟨key, m, e, entry, hs, hservice⟩ := hp.serves service h
  exact ⟨key, m, e, entry, { hs with reached := hm.trans hs.reached }, hservice⟩

end Resumes

end ConnectionBroker
