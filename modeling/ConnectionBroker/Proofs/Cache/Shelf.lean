import Mathlib.Data.List.Nodup
import ConnectionBroker.Cache.Step

/-!
# A shelf of services

What the cache is for somebody who uses it alone, without slots, calls or flags : a `Shelf` has the
time and the services that are kept, each under its key and with its last use. `Shelf.serve` is what
becomes of one `Errand`. It depends on nothing but the time to live and on which hop is alive when.

`Shelf.find?_keep` and `Shelf.find?_put` say what is found under a key after each of the two things
that are ever done to a shelf.
-/

namespace ConnectionBroker

/-- How a factory works: how long it takes, and what it comes to. -/
structure Factory where
  delay : Nat
  outcome : Cache.Built

/-- The hop that a factory hands out. -/
def Factory.hop? (f : Factory) : Option Hop :=
  match f.outcome with
  | .resource r => some r.hop
  | _ => none

/-- What somebody can want of a cache. -/
inductive Ask where
  /-- The service of a key, built by the factory if there is none. -/
  | get (key : Fingerprint) (factory : Factory)
  | touch (key : Fingerprint)
  | sweep
  | close (key : Fingerprint)
  | closeAll
  /-- The number of services. -/
  | size
  | contains (key : Fingerprint)

/-- The hop that may be handed out. -/
def Ask.hop? : Ask → Option Hop
  | .get _ f => f.hop?
  | _ => none

/-- What somebody wants, and when; it has to wait until everything before it is done. -/
structure Errand where
  time : Nat
  ask : Ask

/-- A service that is kept under a key. -/
structure Shelved where
  key : Fingerprint
  resource : Resource
  lastUse : Nat

/-- Idle for its time to live, or without a living hop. -/
def Shelved.stale (ttl : Nat) (lives : Hop → Nat → Bool) (now : Nat) (k : Shelved) : Bool :=
  decide (ttl ≤ now - k.lastUse) || !lives k.resource.hop now

/-- The services that are kept, no two of them under one key. -/
structure Shelf where
  now : Nat
  items : List Shelved
  distinct : (items.map Shelved.key).Nodup

namespace Shelf

/-- What becomes of an errand. -/
structure Reply where
  result : Result
  /-- The keys that the factory was called for. -/
  builds : List Fingerprint
  /-- What is closed at once. -/
  dropped : List Resource
  /-- What is closed as soon as it is built. -/
  refused : Option Resource

/-- A reply, with the time when the errand was begun and the time when it was done. -/
structure Served where
  begun : Nat
  reply : Reply
  done : Nat

/-- An empty shelf. -/
def empty (now : Nat) : Shelf :=
  ⟨now, [], List.nodup_nil⟩

/-- The time moves on; it never goes back. -/
def wait (s : Shelf) (t : Nat) : Shelf :=
  { s with now := max s.now t }

/-- What is kept under a key. -/
def find? (s : Shelf) (key : Fingerprint) : Option Shelved :=
  s.items.find? (·.key == key)

/-- Keeps some of the services. -/
def keep (s : Shelf) (p : Shelved → Bool) : Shelf where
  now := s.now
  items := s.items.filter p
  distinct := (List.filter_sublist.map _).nodup s.distinct

/-- Keeps a service, in place of the one that has its key. -/
def put (s : Shelf) (k : Shelved) : Shelf where
  now := s.now
  items := k :: (s.keep (·.key != k.key)).items
  distinct := by
    rw [List.map_cons, List.nodup_cons]
    refine ⟨fun hmem => ?_, (s.keep _).distinct⟩
    obtain ⟨k', hk', heq⟩ := List.mem_map.1 hmem
    simp [keep, heq] at hk'

variable (ttl : Nat) (lives : Hop → Nat → Bool)

/-- The services that are stale now. -/
def staleItems (s : Shelf) : List Shelved :=
  s.items.filter (·.stale ttl lives s.now)

/-- The shelf without the services that are stale now. -/
def fresh (s : Shelf) : Shelf :=
  s.keep fun k => !k.stale ttl lives s.now

/-- A reply that has to do with no factory. -/
def Reply.plain (result : Result) (dropped : List Shelved) : Reply :=
  ⟨result, [], dropped.map (·.resource), none⟩

/-- What the factory's outcome comes to: it is kept unless it is stale at once. -/
def settle (s : Shelf) (key : Fingerprint) : Cache.Built → Reply × Shelf
  | .failed e => (⟨.failed e, [key], [], none⟩, s)
  | .panicked => (⟨.panicked, [key], [], none⟩, s)
  | .resource r =>
    if Shelved.stale ttl lives s.now ⟨key, r, s.now⟩ then
      (⟨.failed (Cache.deadKey key), [key], [], some r⟩, s)
    else (⟨.service r.service, [key], [], none⟩, s.put ⟨key, r, s.now⟩)

/-- The service of a key, when nothing is stale. -/
def fetch (s : Shelf) (key : Fingerprint) (f : Factory) : Reply × Shelf :=
  match s.find? key with
  | some k => (.plain (.service k.resource.service) [], s.put { k with lastUse := s.now })
  | none => (s.wait (s.now + f.delay)).settle ttl lives key f.outcome

/-- The service of a key. What is stale goes first, under whatever key. -/
def get (s : Shelf) (key : Fingerprint) (f : Factory) : Reply × Shelf :=
  let (reply, s') := (s.fresh ttl lives).fetch ttl lives key f
  ({ reply with dropped := (s.staleItems ttl lives).map (·.resource) }, s')

/-- Resets the idle time of a key's service; a stale one goes. -/
def touch (s : Shelf) (key : Fingerprint) : Reply × Shelf :=
  match s.find? key with
  | some k =>
    if k.stale ttl lives s.now then (.plain (.flag false) [k], s.keep (·.key != key))
    else (.plain (.flag true) [], s.put { k with lastUse := s.now })
  | none => (.plain (.flag false) [], s)

/-- Takes a key's service off the shelf. -/
def close (s : Shelf) (key : Fingerprint) : Reply × Shelf :=
  (.plain (.flag (s.find? key).isSome) (s.find? key).toList, s.keep (·.key != key))

/-- What becomes of an errand that has its turn now. -/
def answer (s : Shelf) : Ask → Reply × Shelf
  | .get key f => s.get ttl lives key f
  | .touch key => s.touch ttl lives key
  | .sweep =>
    (.plain (.count (s.staleItems ttl lives).length) (s.staleItems ttl lives), s.fresh ttl lives)
  | .close key => s.close key
  | .closeAll => (.plain (.count s.items.length) s.items, s.keep fun _ => false)
  | .size => (.plain (.count s.items.length) [], s)
  | .contains key => (.plain (.flag (s.find? key).isSome) [], s)

/-- What becomes of an errand. -/
def serve (s : Shelf) (r : Errand) : Reply × Shelf :=
  (s.wait r.time).answer ttl lives r.ask

/-- What becomes of one errand after the other. -/
def replies (s : Shelf) : List Errand → List Served
  | [] => []
  | r :: rest =>
    ⟨(s.wait r.time).now, (s.serve ttl lives r).1, (s.serve ttl lives r).2.now⟩ ::
      replies (s.serve ttl lives r).2 rest

variable {ttl : Nat} {lives : Hop → Nat → Bool} {s : Shelf} {key : Fingerprint} {k : Shelved}

@[simp] theorem now_settle (outcome : Cache.Built) :
    (s.settle ttl lives key outcome).2.now = s.now := by
  cases outcome with
  | failed e => rfl
  | panicked => rfl
  | resource r =>
    rw [settle]
    split <;> rfl

@[simp] theorem builds_settle (outcome : Cache.Built) :
    (s.settle ttl lives key outcome).1.builds = [key] := by
  cases outcome with
  | failed e => rfl
  | panicked => rfl
  | resource r =>
    rw [settle]
    split <;> rfl

/-! ## What is found on a shelf -/

theorem find?_eq_some_iff : s.find? key = some k ↔ k ∈ s.items ∧ k.key = key := by
  constructor
  · intro h
    exact ⟨List.mem_of_find?_eq_some h, by simpa using List.find?_some h⟩
  · rintro ⟨hmem, rfl⟩
    cases hf : s.items.find? (·.key == k.key) with
    | none => simpa using List.find?_eq_none.1 hf k hmem
    | some k' =>
      have hkey : k'.key = k.key := by simpa using List.find?_some hf
      have heq : k' = k :=
        List.inj_on_of_nodup_map s.distinct (List.mem_of_find?_eq_some hf) hmem hkey
      rw [find?, hf, heq]

theorem find?_keep (s : Shelf) (p : Shelved → Bool) (key : Fingerprint) :
    (s.keep p).find? key = (s.find? key).filter p := by
  refine Option.ext fun k => ?_
  rw [find?_eq_some_iff, Option.filter_eq_some_iff, find?_eq_some_iff, keep, List.mem_filter]
  exact and_right_comm

theorem find?_put (s : Shelf) (k : Shelved) (key : Fingerprint) :
    (s.put k).find? key = if k.key = key then some k else s.find? key := by
  refine Option.ext fun k' => ?_
  rw [find?_eq_some_iff, put, List.mem_cons]
  simp only [keep, List.mem_filter]
  split
  · rename_i hkey
    subst hkey
    constructor
    · rintro ⟨rfl | ⟨-, hne⟩, hk⟩
      · rfl
      · simp [hk] at hne
    · rintro ⟨⟩
      exact ⟨.inl rfl, rfl⟩
  · rename_i hkey
    rw [find?_eq_some_iff]
    constructor
    · rintro ⟨rfl | ⟨hmem, -⟩, hk⟩
      · exact absurd hk hkey
      · exact ⟨hmem, hk⟩
    · rintro ⟨hmem, rfl⟩
      exact ⟨.inr ⟨hmem, by simpa using Ne.symm hkey⟩, rfl⟩

end Shelf

end ConnectionBroker
