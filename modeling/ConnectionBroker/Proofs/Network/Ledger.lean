import Mathlib.Algebra.Order.Group.Multiset
import Mathlib.Data.Multiset.Range
import Mathlib.Tactic.Abel
import ConnectionBroker.Proofs.Network.Accounts

/-!
# The ledger of sessions

A session that was opened is held by somebody, or it was closed, and never both : the sessions that
are held and the ones that were closed are together the sessions that were opened, each of them once
(`Ledger.conserved`). A `Holding` is what a build or an entry holds : a hop, or a tunnel that is
being started. No tunnel is in two holdings, and a tunnel that has a session is in one.

Every operation on the accounts gives some holdings for others and leaves the rest of them alone
(`Ledger.exchange`), so a missing close or a second one would show as a session too many or too few.
-/

namespace ConnectionBroker

/-- What an entry or a build holds of the network. -/
inductive Holding where
  | hop (hop : Hop)
  /-- A tunnel that waits for its session. -/
  | starting (tunnel : TunnelId)
  /-- A tunnel that waits for its local port, with the session of its start. -/
  | pending (tunnel : TunnelId) (session : SessionId)

namespace Holding

/-- The tunnel that is held. -/
def tunnel? : Holding → Option TunnelId
  | hop (.tunnel t) => some t
  | hop .direct => none
  | hop (.channel _) => none
  | starting t => some t
  | pending t _ => some t

/-- The session that is held, inside a tunnel perhaps. -/
def session? (tunnels : List TunnelPhase) : Holding → Option SessionId
  | hop .direct => none
  | hop (.channel s) => some s
  | hop (.tunnel t) => tunnels[t]?.bind (·.2)
  | starting _ => none
  | pending _ s => some s

/-- A tunnel that is held as a hop is started and has a session. One that is being started has
none yet. -/
def Fits (tunnels : List TunnelPhase) : Holding → Prop
  | hop (.tunnel t) => ∃ s, tunnels[t]? = some (.started, some s)
  | hop .direct => True
  | hop (.channel _) => True
  | starting t => tunnels[t]? = some (.starting, none)
  | pending t _ => tunnels[t]? = some (.starting, none)

variable {tunnels tunnels' : List TunnelPhase} {x : Holding} {t : TunnelId}

/-- A holding depends on no tunnel but its own. -/
theorem session?_congr (h : ∀ t, x.tunnel? = some t → tunnels'[t]? = tunnels[t]?) :
    x.session? tunnels' = x.session? tunnels := by
  cases x with
  | hop hop =>
    cases hop with
    | tunnel t => simp only [session?, h t rfl]
    | _ => rfl
  | _ => rfl

theorem Fits.congr (hx : x.Fits tunnels)
    (h : ∀ t, x.tunnel? = some t → tunnels'[t]? = tunnels[t]?) : x.Fits tunnels' := by
  cases x with
  | hop hop =>
    cases hop with
    | tunnel t => rwa [Fits, h t rfl]
    | _ => trivial
  | _ => exact (h _ rfl).trans hx

/-- A tunnel that is held is there, and it is not closed. -/
theorem Fits.phase (hx : x.Fits tunnels) (ht : x.tunnel? = some t) :
    ∃ phase, tunnels[t]? = some phase ∧ phase.1 ≠ .closed := by
  cases x with
  | hop hop =>
    cases hop with
    | tunnel t' =>
      obtain rfl : t' = t := Option.some.inj ht
      obtain ⟨s, hs⟩ := hx
      exact ⟨_, hs, nofun⟩
    | _ => cases ht
  | _ =>
    obtain rfl := Option.some.inj ht
    exact ⟨_, hx, nofun⟩

end Holding

/-- What is held and what was closed, against what was opened. -/
structure Ledger (a : Accounts) (held : Multiset Holding) : Prop where
  /-- Every session that was opened is held or was closed, once. -/
  conserved : held.filterMap (·.session? a.tunnels) + a.closedSessions = Multiset.range a.sessions
  /-- No tunnel is held twice. -/
  apart : (held.filterMap Holding.tunnel?).Nodup
  fits : ∀ x ∈ held, x.Fits a.tunnels
  /-- A tunnel that has a session is held as a hop. -/
  line_held : ∀ t state s, a.tunnels[t]? = some (state, some s) → .hop (.tunnel t) ∈ held

/-- What is there, if anything is. -/
def ofOption {α : Type} (x : Option α) : Multiset α :=
  x.toList

section OfOption

variable {α β : Type}

@[simp] theorem ofOption_none : ofOption (none : Option α) = 0 :=
  rfl

@[simp] theorem ofOption_some (a : α) : ofOption (some a) = {a} :=
  rfl

@[simp] theorem mem_ofOption {x : Option α} {a : α} : a ∈ ofOption x ↔ x = some a := by
  cases x <;> simp [eq_comm]

theorem nodup_ofOption (x : Option α) : (ofOption x).Nodup := by
  cases x <;> simp

@[simp] theorem filterMap_ofOption (f : α → Option β) (x : Option α) :
    (ofOption x).filterMap f = ofOption (x.bind f) := by
  have hlist : x.toList.filterMap f = (x.bind f).toList := by
    cases x with
    | none => rfl
    | some a => cases h : f a <;> simp [h]
  exact congrArg _ hlist

theorem filterMap_cons (f : α → Option β) (a : α) (m : Multiset α) :
    (a ::ₘ m).filterMap f = ofOption (f a) + m.filterMap f := by
  rw [← Multiset.singleton_add, Multiset.filterMap_add, ← ofOption_some, filterMap_ofOption,
    Option.bind_some]

theorem filterMap_congr {f g : α → Option β} {m : Multiset α} (h : ∀ x ∈ m, f x = g x) :
    m.filterMap f = m.filterMap g := by
  induction m using Quotient.inductionOn with
  | h rows => exact congrArg _ (List.filterMap_congr h)

end OfOption

namespace Ledger

variable {a a' : Accounts} {old new : Option Holding} {rest : Multiset Holding} {x : Holding}
  {t : TunnelId} {s : SessionId}

/-- What happens to the services is no matter to the ledger. -/
theorem congr {held : Multiset Holding} (hl : Ledger a held) (hsessions : a'.sessions = a.sessions)
    (htunnels : a'.tunnels = a.tunnels) (hclosed : a'.closedSessions = a.closedSessions) :
    Ledger a' held := by
  refine ⟨?_, hl.apart, ?_, ?_⟩
  · rw [hsessions, htunnels, hclosed]
    exact hl.conserved
  · rw [htunnels]
    exact hl.fits
  · rw [htunnels]
    exact hl.line_held

/-- A holding is given for another one. The sessions balance, what is new is held by nobody else,
and the rest does not notice. -/
theorem exchange (hl : Ledger a (ofOption old + rest))
    (hrest : ∀ x ∈ rest, ∀ t, x.tunnel? = some t → a'.tunnels[t]? = a.tunnels[t]?)
    (hsessions : ofOption (new.bind (·.session? a'.tunnels)) + a'.closedSessions +
        Multiset.range a.sessions =
      ofOption (old.bind (·.session? a.tunnels)) + a.closedSessions + Multiset.range a'.sessions)
    (hnew : ∀ t, new.bind Holding.tunnel? = some t →
      old.bind Holding.tunnel? = some t ∨ a.tunnels[t]? = none)
    (hfits : ∀ x, new = some x → x.Fits a'.tunnels)
    (hline : ∀ t state s, a'.tunnels[t]? = some (state, some s) →
      new = some (.hop (.tunnel t)) ∨
        a.tunnels[t]? = some (state, some s) ∧ old ≠ some (.hop (.tunnel t))) :
    Ledger a' (ofOption new + rest) := by
  have hsame : rest.filterMap (·.session? a'.tunnels) = rest.filterMap (·.session? a.tunnels) :=
    filterMap_congr fun x hx => Holding.session?_congr (hrest x hx)
  refine ⟨?_, ?_, fun x hx => ?_, fun t state s ht => ?_⟩
  · have hold := hl.conserved
    rw [Multiset.filterMap_add, filterMap_ofOption] at hold ⊢
    rw [hsame]
    refine add_right_cancel (b := Multiset.range a.sessions) ?_
    calc _ = ofOption (new.bind (·.session? a'.tunnels)) + a'.closedSessions +
            Multiset.range a.sessions + rest.filterMap (·.session? a.tunnels) := by abel
      _ = ofOption (old.bind (·.session? a.tunnels)) + rest.filterMap (·.session? a.tunnels) +
            a.closedSessions + Multiset.range a'.sessions := by
          rw [hsessions]
          abel
      _ = Multiset.range a'.sessions + Multiset.range a.sessions := by
          rw [hold, add_comm]
  · have hapart := hl.apart
    rw [Multiset.filterMap_add, filterMap_ofOption, Multiset.nodup_add] at hapart ⊢
    refine ⟨nodup_ofOption _, hapart.2.1, Multiset.disjoint_left.2 @fun t ht hr => ?_⟩
    rcases hnew t (mem_ofOption.1 ht) with hold | hnone
    · exact Multiset.disjoint_left.1 hapart.2.2 (mem_ofOption.2 hold) hr
    · obtain ⟨x, hx, hxt⟩ := (Multiset.mem_filterMap _ _).1 hr
      obtain ⟨phase, hphase, -⟩ := (hl.fits x (Multiset.mem_add.2 (.inr hx))).phase hxt
      rw [hnone] at hphase
      cases hphase
  · rcases Multiset.mem_add.1 hx with hx | hx
    · exact hfits x (mem_ofOption.1 hx)
    · exact (hl.fits x (Multiset.mem_add.2 (.inr hx))).congr (hrest x hx)
  · rcases hline t state s ht with hmem | ⟨ht, hout⟩
    · exact Multiset.mem_add.2 (.inl (mem_ofOption.2 hmem))
    · refine Multiset.mem_add.2 (.inr ?_)
      exact (Multiset.mem_add.1 (hl.line_held t state s ht)).resolve_left (hout ∘ mem_ofOption.1)

/-- A tunnel is in no holding but one. -/
theorem not_held (hl : Ledger a (ofOption old + rest)) (ht : old.bind Holding.tunnel? = some t)
    (hx : x ∈ rest) : x.tunnel? ≠ some t := by
  intro hxt
  have hapart := hl.apart
  rw [Multiset.filterMap_add, filterMap_ofOption, Multiset.nodup_add] at hapart
  exact Multiset.disjoint_left.1 hapart.2.2 (mem_ofOption.2 ht)
    ((Multiset.mem_filterMap _ _).2 ⟨x, hx, hxt⟩)

theorem fits_of_held (hl : Ledger a (ofOption (some x) + rest)) : x.Fits a.tunnels :=
  hl.fits x (Multiset.mem_add.2 (.inl (mem_ofOption.2 rfl)))

/-- A tunnel that is held is there, and it is not closed. -/
theorem phase (hl : Ledger a (ofOption old + rest)) (hx : x ∈ rest) (ht : x.tunnel? = some t) :
    ∃ phase, a.tunnels[t]? = some phase ∧ phase.1 ≠ .closed :=
  (hl.fits x (Multiset.mem_add.2 (.inr hx))).phase ht

/-- A holding is given for another one, and no tunnel changes. -/
theorem trade (hl : Ledger a (ofOption old + rest)) (htunnels : a'.tunnels = a.tunnels)
    (hsessions : ofOption (new.bind (·.session? a.tunnels)) + a'.closedSessions +
        Multiset.range a.sessions =
      ofOption (old.bind (·.session? a.tunnels)) + a.closedSessions + Multiset.range a'.sessions)
    (hnew : new.bind Holding.tunnel? = old.bind Holding.tunnel?)
    (hfits : ∀ x, new = some x → x.Fits a.tunnels)
    (hout : ∀ t, old ≠ some (.hop (.tunnel t))) : Ledger a' (ofOption new + rest) := by
  refine hl.exchange (fun _ _ _ _ => by rw [htunnels]) (by rwa [htunnels])
    (fun t ht => .inl (hnew ▸ ht)) (by rwa [htunnels]) fun t state s ht => .inr ⟨?_, hout t⟩
  rwa [htunnels] at ht

/-- The tunnel of a holding goes on to another phase. Only a hop may have a session then. -/
theorem advance {phase : TunnelPhase} {closed : List SessionId}
    (hl : Ledger a (ofOption (some x) + rest)) (ht : x.tunnel? = some t)
    (hsessions : ofOption (new.bind (·.session? (a.tunnels.set t phase))) + closed =
      ofOption (x.session? a.tunnels) + a.closedSessions)
    (hnew : ∀ y, new = some y → y.tunnel? = some t ∧ y.Fits (a.tunnels.set t phase))
    (hline : phase.2.isSome → new = some (.hop (.tunnel t))) :
    Ledger { a with tunnels := a.tunnels.set t phase, closedSessions := closed }
      (ofOption new + rest) := by
  refine hl.exchange (fun y hy t' ht' => ?_) (congrArg (· + Multiset.range a.sessions) hsessions)
    (fun t' ht' => .inl ?_) (fun y hy => (hnew y hy).2) fun t' state s ht' => ?_
  · refine List.getElem?_set_ne ?_
    rintro rfl
    exact hl.not_held ht hy ht'
  · obtain ⟨y, hy, hyt⟩ := Option.bind_eq_some_iff.1 ht'
    rw [Option.bind_some, ht, ← (hnew y hy).1, hyt]
  · by_cases hne : t = t'
    · subst hne
      obtain ⟨-, rfl⟩ : t < a.tunnels.length ∧ phase = (state, some s) := by
        simpa [List.getElem?_set] using ht'
      exact .inl (hline rfl)
    · refine .inr ⟨by rwa [List.getElem?_set_ne hne] at ht', fun heq => hne ?_⟩
      obtain rfl := Option.some.inj heq
      exact (Option.some.inj ht).symm

/-! ## Beginning to hold -/

/-- A tunnel is made and started. -/
theorem start (hl : Ledger a rest) :
    Ledger { a with tunnels := a.tunnels ++ [(.starting, none)] }
      (ofOption (some (.starting a.tunnels.length)) + rest) := by
  rw [← zero_add rest, ← ofOption_none] at hl
  refine hl.exchange (fun x hx t ht => ?_) rfl (fun t ht => .inr ?_) (fun x hx => ?_)
    fun t state s ht => .inr ⟨?_, nofun⟩
  · obtain ⟨phase, hphase, -⟩ := hl.phase hx ht
    obtain ⟨hlt, -⟩ := List.getElem?_eq_some_iff.1 hphase
    exact List.getElem?_append_left hlt
  · obtain rfl := Option.some.inj ht
    exact List.getElem?_eq_none (Nat.le_refl _)
  · obtain rfl := Option.some.inj hx
    simp [Holding.Fits]
  · rw [List.getElem?_append] at ht
    split at ht
    · exact ht
    · simp [List.getElem?_singleton] at ht

/-- A direct hop is nothing to hold. -/
theorem direct (hl : Ledger a rest) : Ledger a (ofOption (some (.hop .direct)) + rest) := by
  rw [← zero_add rest, ← ofOption_none] at hl
  refine hl.trade rfl rfl rfl (fun x hx => ?_) nofun
  obtain rfl := Option.some.inj hx
  trivial

/-- A session is opened for channels. -/
theorem openChannel (hl : Ledger a rest) : Ledger { a with sessions := a.sessions + 1 }
    (ofOption (some (.hop (.channel a.sessions))) + rest) := by
  rw [← zero_add rest, ← ofOption_none] at hl
  refine hl.trade rfl ?_ rfl (fun x hx => ?_) nofun
  · simp only [Multiset.range_succ, ← Multiset.singleton_add, Option.bind_some, Option.bind_none,
      Holding.session?, ofOption_some, ofOption_none]
    abel
  · obtain rfl := Option.some.inj hx
    trivial

/-- A session is opened for a tunnel that waits for it. -/
theorem connect (hl : Ledger a (ofOption (some (.starting t)) + rest)) :
    Ledger { a with sessions := a.sessions + 1 }
      (ofOption (some (.pending t a.sessions)) + rest) := by
  refine hl.trade rfl ?_ rfl (fun x hx => ?_) nofun
  · simp only [Multiset.range_succ, ← Multiset.singleton_add, Option.bind_some, Holding.session?,
      ofOption_some, ofOption_none]
    abel
  · have hfits : (Holding.starting t).Fits a.tunnels := hl.fits_of_held
    obtain rfl := Option.some.inj hx
    exact hfits

/-- A tunnel with a local port takes the session of its start. -/
theorem listen (hl : Ledger a (ofOption (some (.pending t s)) + rest)) :
    Ledger { a with tunnels := a.tunnels.set t (.started, some s) }
      (ofOption (some (.hop (.tunnel t))) + rest) := by
  have hfits : a.tunnels[t]? = some (.starting, none) := hl.fits_of_held
  obtain ⟨hlt, -⟩ := List.getElem?_eq_some_iff.1 hfits
  refine hl.advance rfl ?_ (fun y hy => ?_) fun _ => rfl
  · simp [Holding.session?, hlt]
  · obtain rfl := Option.some.inj hy
    exact ⟨rfl, s, by simp [hlt]⟩

/-! ## Ceasing to hold -/

/-- A tunnel whose start got no session is closed. -/
theorem giveUp (hl : Ledger a (ofOption (some (.starting t)) + rest)) :
    Ledger { a with tunnels := a.tunnels.set t (.closed, none) } rest := by
  rw [← zero_add rest, ← ofOption_none]
  exact hl.advance rfl rfl nofun nofun

/-- A tunnel without a local port is closed, and so is the session of its start. -/
theorem withdraw (hl : Ledger a (ofOption (some (.pending t s)) + rest)) :
    Ledger { a with
      tunnels := a.tunnels.set t (.closed, none)
      closedSessions := s :: a.closedSessions } rest := by
  rw [← zero_add rest, ← ofOption_none]
  exact hl.advance rfl (by simp [Holding.session?]) nofun nofun

/-- A hop is closed. -/
theorem closeHop {n : Network} {hop : Hop}
    (hl : Ledger n.accounts (ofOption (some (.hop hop)) + rest)) :
    Ledger (n.closeHop hop).accounts rest := by
  rw [← zero_add rest, ← ofOption_none]
  cases hop with
  | direct => exact hl.trade rfl rfl rfl nofun nofun
  | channel s =>
    rw [Network.closeHop, Network.accounts_closeSession]
    refine hl.trade rfl ?_ rfl nofun nofun
    simp [Holding.session?, ← Multiset.cons_coe]
  | tunnel t =>
    obtain ⟨s, hs⟩ : ∃ s, n.accounts.tunnels[t]? = some (.started, some s) := hl.fits_of_held
    rw [Network.closeHop, Network.accounts_closeTunnel hs nofun]
    exact hl.advance rfl (by simp [Holding.session?, hs]) nofun nofun

/-- A tunnel that nobody holds has nothing to give up. -/
theorem drop {n : Network} (hl : Ledger n.accounts rest)
    (ht : ∀ x ∈ rest, x.tunnel? ≠ some t) : Ledger (n.closeTunnel t).accounts rest := by
  cases hphase : n.accounts.tunnels[t]? with
  | none => rwa [Network.closeTunnel_of_none hphase]
  | some phase =>
    obtain ⟨state, session⟩ := phase
    by_cases hclosed : state = .closed
    · subst hclosed
      rwa [Network.closeTunnel_of_closed hphase]
    · obtain rfl : session = none := by
        cases session with
        | none => rfl
        | some s => exact absurd rfl (ht _ (hl.line_held t state s hphase))
      rw [← zero_add rest, ← ofOption_none] at hl ⊢
      rw [Network.accounts_closeTunnel hphase hclosed]
      refine hl.exchange ?_ rfl nofun nofun ?_
      · intro x hx t' ht'
        refine List.getElem?_set_ne ?_
        rintro rfl
        exact ht x hx ht'
      · intro t' state' s' ht'
        by_cases hne : t = t'
        · subst hne
          simp [List.getElem?_set] at ht'
        · exact .inr ⟨by rwa [List.getElem?_set_ne hne] at ht', nofun⟩

end Ledger

end ConnectionBroker
