import Mathlib.Data.List.Induction
import ConnectionBroker.Cache.Entry

/-!
# Who claims an entry

An entry is used, looked at by a sweep or closed under its lock, one `Grip` after the other. The
clock is read before the lock is taken, so the times of successive grips come in any order : a sweep
may bring a time from before the last use, or from before the entry was built, and a late use may
put the last use back.

`grip_cases` says everything that one grip can do. The answers therefore account for the entry
(`accounts_log`) : it is closed exactly if one of them is a claim, no two of them are, and its last
use is the time of the use that was granted last. So the teardown is claimed once, for good, and
not from under somebody who has just used the entry (`claimed_fairly`).
-/

namespace ConnectionBroker

namespace Entry

variable {e e₀ : Entry} {now limit : Nat} {alive : Bool}

/-! ## Grips -/

/-- What is done to an entry while its lock is held. The time was read before that; the answer of
the hop is the one that it gives if it is asked. -/
inductive Grip where
  | access (now : Nat) (alive : Bool)
  | tryExpire (now : Nat) (alive : Bool)
  | markClosed
  deriving DecidableEq, Repr

/-- What a grip reports. -/
inductive Answer where
  | access (a : Access)
  | flag (b : Bool)
  deriving DecidableEq, Repr

/-- Does to the entry what the grip is for. -/
def grip (e : Entry) : Grip → Answer × Entry
  | .access now alive => (e.access now alive).map .access id
  | .tryExpire now alive => (e.tryExpire now alive).map .flag id
  | .markClosed => e.markClosed.map .flag id

/-- The teardown is claimed. -/
def Answer.isClaim : Answer → Bool
  | .access a => a == .expired
  | .flag b => b

/-- The answer to a grip that comes after the claim. -/
def Grip.refusal : Grip → Answer
  | .access _ _ => .access .closed
  | .tryExpire _ _ | .markClosed => .flag false

/-- The grip puts an end to an entry whose time is up at the limit : it comes to close it anyway, it
comes at the limit or later, or it finds the hop dead. -/
def Grip.Condemns (limit : Nat) : Grip → Prop
  | .access now alive | .tryExpire now alive => limit ≤ now ∨ alive = false
  | .markClosed => True

/-- A time from before the last use makes no entry stale that has a time to live. -/
theorem isStale_iff (hpos : 0 < e.ttl) :
    e.isStale now alive = true ↔ e.lastUse + e.ttl ≤ now ∨ alive = false := by
  have hidle : e.ttl ≤ now - e.lastUse ↔ e.lastUse + e.ttl ≤ now := by omega
  simp [isStale, isIdle, hidle]

theorem isStale_eq_false_iff (hpos : 0 < e.ttl) :
    e.isStale now alive = false ↔ now < e.lastUse + e.ttl ∧ alive = true := by
  rw [← Bool.not_eq_true, isStale_iff hpos, not_or, Nat.not_le, Bool.not_eq_false]

/-- Before the limit no look at an entry whose hop is alive puts an end to it. -/
theorem Grip.not_condemns (hlt : now < limit) :
    ¬(access now true).Condemns limit ∧ ¬(tryExpire now true).Condemns limit := by
  simp [Condemns, hlt]

/-- Everything that one grip can do. A closed entry refuses it. An open one is closed if the grip
condemns it; else an `access` uses it, and a `tryExpire` lets it be. -/
theorem grip_cases (hpos : 0 < e.ttl) (g : Grip) :
    (e.closed = true ∧ e.grip g = (g.refusal, e)) ∨
    (e.closed = false ∧ g.Condemns (e.lastUse + e.ttl) ∧ (e.grip g).1.isClaim = true ∧
      (e.grip g).2 = { e with closed := true }) ∨
    (e.closed = false ∧ ¬g.Condemns (e.lastUse + e.ttl) ∧
      ((∃ now, g = .access now true ∧
          e.grip g = (.access .touched, { e with lastUse := now })) ∨
        ∃ now, g = .tryExpire now true ∧ e.grip g = (.flag false, e))) := by
  cases hclosed : e.closed with
  | true =>
    refine .inl ⟨rfl, ?_⟩
    cases g <;> simp [grip, access, tryExpire, markClosed, hclosed, Grip.refusal]
  | false =>
    refine .inr ?_
    cases g with
    | access now alive =>
      cases hstale : e.isStale now alive with
      | true =>
        refine .inl ⟨rfl, (isStale_iff hpos).1 hstale, ?_⟩
        simp [grip, access, hclosed, hstale, Answer.isClaim]
      | false =>
        obtain ⟨hlt, rfl⟩ := (isStale_eq_false_iff hpos).1 hstale
        refine .inr ⟨rfl, (Grip.not_condemns hlt).1, .inl ⟨now, rfl, ?_⟩⟩
        simp [grip, access, hclosed, hstale]
    | tryExpire now alive =>
      cases hstale : e.isStale now alive with
      | true =>
        refine .inl ⟨rfl, (isStale_iff hpos).1 hstale, ?_⟩
        simp [grip, tryExpire, hclosed, hstale, Answer.isClaim]
      | false =>
        obtain ⟨hlt, rfl⟩ := (isStale_eq_false_iff hpos).1 hstale
        refine .inr ⟨rfl, (Grip.not_condemns hlt).2, .inr ⟨now, rfl, ?_⟩⟩
        simp [grip, tryExpire, hclosed, hstale]
    | markClosed =>
      refine .inl ⟨rfl, trivial, ?_⟩
      simp [grip, markClosed, hclosed, Answer.isClaim]

theorem isClaim_refusal (g : Grip) : g.refusal.isClaim = false := by
  cases g <;> rfl

/-! ## Sequences of grips -/

/-- The entry after some grips, one after the other. -/
def after (e : Entry) (grips : List Grip) : Entry :=
  grips.foldl (fun e g => (e.grip g).2) e

/-- The grips with their answers. -/
def log (e : Entry) : List Grip → List (Grip × Answer)
  | [] => []
  | g :: grips => (g, (e.grip g).1) :: (e.grip g).2.log grips

/-- The time of a use, if it was granted. -/
def grantedAt? : Grip × Answer → Option Nat
  | (.access now _, .access .touched) => some now
  | _ => none

/-- The time of the use that was granted last, or else the time when the entry was built. -/
def lastGranted (born : Nat) (log : List (Grip × Answer)) : Nat :=
  (log.filterMap grantedAt?).getLast?.getD born

theorem after_append (e : Entry) (grips : List Grip) (g : Grip) :
    e.after (grips ++ [g]) = ((e.after grips).grip g).2 := by
  simp [after]

theorem log_append (e : Entry) (grips : List Grip) (g : Grip) :
    e.log (grips ++ [g]) = e.log grips ++ [(g, ((e.after grips).grip g).1)] := by
  induction grips generalizing e with
  | nil => rfl
  | cons g' grips ih => exact congrArg (_ :: ·) (ih _)

theorem lastGranted_append (born : Nat) (log : List (Grip × Answer)) (p : Grip × Answer) :
    lastGranted born (log ++ [p]) = (grantedAt? p).getD (lastGranted born log) := by
  cases hp : grantedAt? p <;> simp [lastGranted, List.filterMap_append, hp]

theorem grantedAt?_of_isClaim {a : Answer} (h : a.isClaim = true) (g : Grip) :
    grantedAt? (g, a) = none := by
  cases g <;> cases a <;> simp_all [grantedAt?, Answer.isClaim]

theorem grantedAt?_refusal (g : Grip) : grantedAt? (g, g.refusal) = none := by
  cases g <;> rfl

/-- The answer tells what the grip did. -/
theorem grip_effect (hpos : 0 < e.ttl) (g : Grip) :
    (e.grip g).2.ttl = e.ttl ∧
      (e.grip g).2.lastUse = (grantedAt? (g, (e.grip g).1)).getD e.lastUse ∧
      (e.grip g).2.closed.toNat = e.closed.toNat + (e.grip g).1.isClaim.toNat := by
  rcases grip_cases hpos g with
    ⟨hclosed, heq⟩ | ⟨hopen, -, hclaim, heq⟩ | ⟨hopen, -, ⟨now, rfl, heq⟩ | ⟨now, rfl, heq⟩⟩
  · rw [heq, grantedAt?_refusal, isClaim_refusal]
    exact ⟨rfl, rfl, rfl⟩
  · rw [heq, grantedAt?_of_isClaim hclaim, hopen, hclaim]
    exact ⟨rfl, rfl, rfl⟩
  · rw [heq]
    exact ⟨rfl, rfl, rfl⟩
  · rw [heq]
    exact ⟨rfl, rfl, rfl⟩

/-- The log accounts for what has become of an entry. -/
structure Accounts (e₀ : Entry) (log : List (Grip × Answer)) (e : Entry) : Prop where
  ttl : e.ttl = e₀.ttl
  lastUse : e.lastUse = lastGranted e₀.lastUse log
  claims : log.countP (·.2.isClaim) = e.closed.toNat

namespace Accounts

variable {log : List (Grip × Answer)}

/-- One more grip. -/
theorem grip (h : Accounts e₀ log e) (hpos : 0 < e₀.ttl) (g : Grip) :
    Accounts e₀ (log ++ [(g, (e.grip g).1)]) (e.grip g).2 := by
  obtain ⟨httl, hlast, hclaims⟩ := h
  obtain ⟨hkeep, huse, hclose⟩ := grip_effect (httl ▸ hpos) g
  refine ⟨hkeep.trans httl, ?_, ?_⟩
  · rw [huse, lastGranted_append, hlast]
  · rw [hclose, List.countP_append, hclaims]
    cases hclaim : (e.grip g).1.isClaim <;> simp [hclaim]

/-- The entry is closed exactly if a claim is in the log. -/
theorem closed_iff (h : Accounts e₀ log e) :
    e.closed = true ↔ ∃ past ∈ log, past.2.isClaim = true := by
  rw [← List.countP_pos_iff, h.claims]
  cases e.closed <;> simp

theorem claims_le (h : Accounts e₀ log e) : log.countP (·.2.isClaim) ≤ 1 :=
  h.claims ▸ e.closed.toNat_le

/-- A claim in the log shuts out every grip that follows. -/
theorem grip_eq_refusal (h : Accounts e₀ log e) (hpos : 0 < e₀.ttl)
    (hclaim : ∃ past ∈ log, past.2.isClaim = true) (g : Grip) : e.grip g = (g.refusal, e) := by
  have hclosed := h.closed_iff.2 hclaim
  rcases grip_cases (h.ttl ▸ hpos) g with ⟨-, heq⟩ | ⟨hopen, -⟩ | ⟨hopen, -⟩
  · exact heq
  · cases hopen.symm.trans hclosed
  · cases hopen.symm.trans hclosed

/-- A grip claims the teardown exactly if no claim is in the log and it condemns the entry. -/
theorem isClaim_iff (h : Accounts e₀ log e) (hpos : 0 < e₀.ttl) (g : Grip) :
    (e.grip g).1.isClaim = true ↔ (∀ past ∈ log, past.2.isClaim = false) ∧
      g.Condemns (lastGranted e₀.lastUse log + e₀.ttl) := by
  have hnone : e.closed = false ↔ ∀ past ∈ log, past.2.isClaim = false := by
    simpa using not_congr h.closed_iff
  rw [← hnone, ← h.lastUse, ← h.ttl]
  rcases grip_cases (h.ttl ▸ hpos) g with
    ⟨hclosed, heq⟩ | ⟨hopen, hdue, hclaim, -⟩ | ⟨hopen, hspare, ⟨now, rfl, heq⟩ | ⟨now, rfl, heq⟩⟩
  · simp [heq, hclosed, isClaim_refusal]
  · simp [hopen, hdue, hclaim]
  · simp [heq, hspare, Answer.isClaim]
  · simp [heq, hspare, Answer.isClaim]

end Accounts

/-- The log of every sequence of grips accounts for what becomes of an open entry. -/
theorem accounts_log (hpos : 0 < e₀.ttl) (hopen : e₀.closed = false) (grips : List Grip) :
    Accounts e₀ (e₀.log grips) (e₀.after grips) := by
  -- From the right : the last grip finds the entry that the others have left.
  induction grips using List.reverseRecOn with
  | nil => exact ⟨rfl, rfl, by simp [log, after, hopen]⟩
  | append_singleton grips g ih =>
    rw [log_append, after_append]
    exact ih.grip hpos g

/-! ## The teardown -/

/-- Of all the grips on an entry at most one claims the teardown, no later one gets or changes
anything, and an entry in use is spared. -/
structure FairlyClaimed (e₀ : Entry) (grips : List Grip) : Prop where
  once : (e₀.log grips).countP (·.2.isClaim) ≤ 1
  /-- Every grip after the claim is refused and leaves the entry as it is. -/
  refused : ∀ before g later, grips = before ++ g :: later →
    (∃ past ∈ e₀.log before, past.2.isClaim = true) →
      (e₀.after before).grip g = (g.refusal, e₀.after before)
  /-- No use and no look of a sweep that finds the hop alive claims the teardown with a time less
  than the time to live after the use that was granted last, or after the entry was built. -/
  spared : ∀ before g later now, grips = before ++ g :: later →
    g = .access now true ∨ g = .tryExpire now true →
      now < lastGranted e₀.createdAt (e₀.log before) + e₀.ttl →
        ((e₀.after before).grip g).1.isClaim = false
  /-- A grip claims the teardown exactly if none has before it and it condemns the entry. -/
  claims_iff : ∀ before g later, grips = before ++ g :: later →
    (((e₀.after before).grip g).1.isClaim = true ↔
      (∀ past ∈ e₀.log before, past.2.isClaim = false) ∧
        g.Condemns (lastGranted e₀.createdAt (e₀.log before) + e₀.ttl))

/-- An entry with a time to live is claimed fairly, whatever is done to it in whatever order and
with whatever times, and whenever its hop is alive. -/
theorem claimed_fairly (key : Fingerprint) (resource : Resource) (born ttl : Nat) (hpos : 0 < ttl)
    (grips : List Grip) : (fresh key resource born ttl).FairlyClaimed grips := by
  have haccounts := @accounts_log (fresh key resource born ttl) hpos rfl
  refine ⟨(haccounts grips).claims_le, ?_, ?_, ?_⟩
  · rintro before g later - hclaim
    exact (haccounts before).grip_eq_refusal hpos hclaim g
  · rintro before g later now - hg hlt
    refine Bool.eq_false_iff.2 fun hclaim => ?_
    obtain ⟨haccess, hexpire⟩ := Grip.not_condemns hlt
    obtain ⟨-, hdue⟩ := ((haccounts before).isClaim_iff hpos g).1 hclaim
    rcases hg with rfl | rfl
    · exact haccess hdue
    · exact hexpire hdue
  · rintro before g later -
    exact (haccounts before).isClaim_iff hpos g

/-- A use with an older time puts the last use back from 12 to 11, so a sweep at 15 spares the entry
and one at 16 claims it. A use that has read the clock at 12 then comes too late, like a close. -/
theorem claimed_fairly_out_of_order :
    let e := fresh ⟨"k"⟩ ⟨0, .direct⟩ 10 5
    let grips := [.tryExpire 3 true, .access 12 true, .access 11 true, .tryExpire 15 true,
      .tryExpire 16 true, .access 12 true, .markClosed]
    (e.log grips).map (·.2) = [.flag false, .access .touched, .access .touched, .flag false,
      .flag true, .access .closed, .flag false] ∧ e.FairlyClaimed grips :=
  ⟨by decide, claimed_fairly _ _ 10 5 (by decide) _⟩

end Entry

end ConnectionBroker
