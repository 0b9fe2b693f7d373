import ConnectionBroker.Cache.Entry
import ConnectionBroker.Proofs.Network.Accounts

/-!
# Hops that live by the clock

Where no session counts how often it is asked (`Network.Tireless`), a hop that nobody closed is
alive until its time is up (`Network.lives`), and never again after that (`lives_of_le`). Closing a
hop ends the life of those that stand on the same session or are the same tunnel. Hops that have
nothing in common are `Apart` : closing one of them leaves the other as it was (`Spares.closeHop`),
so it answers as it would in the world from which both come (`checkHop_of_spares`).

`Network.release` is the whole release of a service and its hop, and `Network.closes` is what can be
seen of it.
-/

namespace ConnectionBroker

namespace Network

variable {n n' : Network} {hop hop' : Hop}

/-- No session counts how often it is asked. -/
def Tireless (n : Network) : Prop :=
  ∀ s ∈ n.sessions, s.checksLeft = none

/-- The hop is alive at a time, if nobody closes anything. -/
def lives (n : Network) (hop : Hop) (t : Nat) : Bool :=
  ({ n with now := t }.checkHop hop).1

/-- The session that a hop stands on. -/
def sessionOf? (n : Network) : Hop → Option SessionId
  | .direct => none
  | .channel s => some s
  | .tunnel t => n.tunnels[t]?.bind (·.session)

/-- Two hops have nothing in common. -/
structure Apart (n : Network) (hop hop' : Hop) : Prop where
  tunnel : ∀ t, hop = .tunnel t → hop' ≠ .tunnel t
  session : ∀ s, n.sessionOf? hop = some s → n.sessionOf? hop' ≠ some s

theorem Apart.symm (h : n.Apart hop hop') : n.Apart hop' hop :=
  ⟨fun t h₁ h₂ => h.tunnel t h₂ h₁, fun s h₁ h₂ => h.session s h₂ h₁⟩

instance (n : Network) (hop hop' : Hop) : Decidable (n.Apart hop hop') :=
  decidable_of_iff ((∀ t ∈ (match hop with | .tunnel t => [t] | _ => []), hop' ≠ .tunnel t) ∧
      ∀ s ∈ n.sessionOf? hop, n.sessionOf? hop' ≠ some s) <| by
    constructor
    · rintro ⟨ht, hs⟩
      exact ⟨fun t h => ht t (by simp [h]), fun s h => hs s h⟩
    · rintro ⟨ht, hs⟩
      refine ⟨fun t h => ht t ?_, fun s h => hs s h⟩
      cases hop <;> simp_all

/-- A later world has the hop as it was. -/
structure Spares (n n' : Network) (hop : Hop) : Prop where
  tunnel : ∀ t, hop = .tunnel t → n'.tunnels[t]? = n.tunnels[t]?
  session : ∀ s, n.sessionOf? hop = some s → n'.sessions[s]? = n.sessions[s]?

theorem Spares.congr {n'' : Network} (h : n.Spares n' hop) (ht : n''.tunnels = n'.tunnels)
    (hs : n''.sessions = n'.sessions) : n.Spares n'' hop :=
  ⟨fun t heq => by rw [ht, h.tunnel t heq], fun s heq => by rw [hs, h.session s heq]⟩

/-! ## Asking -/

theorem check_of_tireless {s : Session} (h : s.checksLeft = none) (now : Nat) :
    s.check now = (s.intact && s.inTime now, s) := by
  unfold Session.check
  rw [h]
  cases s.intact && s.inTime now <;> rfl

/-- A session that does not count is asked without a trace. -/
theorem checkSession_of_tireless {s : SessionId}
    (h : ∀ row ∈ n.sessions[s]?, row.checksLeft = none) :
    n.checkSession s = ((n.sessions[s]?.map fun row => row.intact && row.inTime n.now).getD false,
      n) := by
  unfold checkSession
  cases hrow : n.sessions[s]? with
  | none => rfl
  | some row =>
    obtain ⟨hlt, rfl⟩ := List.getElem?_eq_some_iff.1 hrow
    simp only [check_of_tireless (h _ hrow), List.set_getElem_self]
    rfl

theorem tireless_row {s : SessionId} (hn : n.Tireless) :
    ∀ row ∈ n.sessions[s]?, row.checksLeft = none :=
  fun _ hrow => hn _ (List.mem_of_getElem? hrow)

/-- A hop that is as it was answers as the clock says, and leaves no trace. -/
theorem checkHop_of_spares (hn : n.Tireless) (h : n.Spares n' hop) :
    n'.checkHop hop = (n.lives hop n'.now, n') := by
  have hsession : ∀ s, n.sessionOf? hop = some s →
      n'.checkSession s = (({ n with now := n'.now }.checkSession s).1, n') := by
    intro s hs
    have hrow := h.session s hs
    rw [checkSession_of_tireless (by rw [hrow]; exact tireless_row hn), hrow,
      checkSession_of_tireless (n := { n with now := n'.now }) (tireless_row hn)]
  cases hop with
  | direct => rfl
  | channel s => exact hsession s rfl
  | tunnel t =>
    simp only [lives, checkHop, checkTunnel, h.tunnel t rfl]
    cases hvital : n.tunnels[t]?.bind Tunnel.vitalSession with
    | none => rfl
    | some s =>
      obtain ⟨tunnel, ht, hs⟩ := Option.bind_eq_some_iff.1 hvital
      refine hsession s ?_
      rw [sessionOf?, ht, Option.bind_some]
      unfold Tunnel.vitalSession at hs
      split at hs
      · exact hs
      · cases hs

/-- What is dead does not come back. -/
theorem lives_of_le {t t' : Nat} (hn : n.Tireless) (hle : t ≤ t') (h : n.lives hop t' = true) :
    n.lives hop t = true := by
  have hsession : ∀ s, ({ n with now := t' }.checkSession s).1 = true →
      ({ n with now := t }.checkSession s).1 = true := by
    intro s hs
    rw [checkSession_of_tireless (n := { n with now := t' }) (tireless_row hn)] at hs
    rw [checkSession_of_tireless (n := { n with now := t }) (tireless_row hn)]
    dsimp only at hs ⊢
    cases hrow : n.sessions[s]? with
    | none => simp [hrow] at hs
    | some row =>
      simp only [hrow, Option.map_some, Option.getD_some, Bool.and_eq_true] at hs ⊢
      refine ⟨hs.1, ?_⟩
      have htime := hs.2
      unfold Session.inTime at htime ⊢
      split
      · rename_i d hd
        simp only [hd, decide_eq_true_eq] at htime
        exact decide_eq_true (Nat.lt_of_le_of_lt hle htime)
      · rfl
  cases hop with
  | direct => rfl
  | channel s => exact hsession s h
  | tunnel i =>
    simp only [lives, checkHop, checkTunnel] at h ⊢
    split at h
    · exact hsession _ h
    · exact absurd h Bool.false_ne_true

/-! ## Closing -/

/-- What can be seen of closing a hop. -/
def hopCloses (n : Network) : Hop → List Happening
  | .direct => []
  | .channel s => [.closeSession s]
  | .tunnel t => ((n.tunnels[t]?.bind (·.close.2)).map Happening.closeSession).toList

/-- What can be seen of a release. -/
def closes (n : Network) (r : Resource) : List Happening :=
  .closeService r.service :: n.hopCloses r.hop

/-- A service is closed, and then its hop. -/
def release (n : Network) (r : Resource) : Network :=
  (n.closeService r.service).closeHop r.hop

theorem log_closeAny (n : Network) (s : Option SessionId) :
    (n.closeAny s).log = (s.map Happening.closeSession).toList.map (n.now, ·) ++ n.log := by
  cases s <;> rfl

@[simp] theorem now_closeAny (n : Network) (s : Option SessionId) :
    (n.closeAny s).now = n.now := by
  cases s <;> rfl

@[simp] theorem now_closeHop (n : Network) (hop : Hop) : (n.closeHop hop).now = n.now := by
  cases hop with
  | direct => rfl
  | channel s => rfl
  | tunnel t =>
    simp only [closeHop, closeTunnel]
    split <;> simp [setTunnel]

theorem closeTunnel_of_row {t : TunnelId} {tunnel : Tunnel} (ht : n.tunnels[t]? = some tunnel) :
    n.closeTunnel t = (n.setTunnel t tunnel.close.1).closeAny tunnel.close.2 := by
  rw [closeTunnel, ht]

theorem log_closeHop (h : n.Spares n' hop) :
    (n'.closeHop hop).log = ((n.hopCloses hop).map (n'.now, ·)).reverse ++ n'.log := by
  cases hop with
  | direct => rfl
  | channel s => rfl
  | tunnel t =>
    have hrow := h.tunnel t rfl
    cases ht : n.tunnels[t]? with
    | none =>
      rw [ht] at hrow
      simp [closeHop, closeTunnel, hopCloses, hrow, ht]
    | some tunnel =>
      rw [closeHop, closeTunnel_of_row (hrow.trans ht), log_closeAny, hopCloses, ht]
      cases hs : tunnel.close.2 <;> simp [hs, setTunnel]

/-- The session that a tunnel gives up is the one it stands on. -/
theorem sessionOf?_of_close {t : TunnelId} {tunnel : Tunnel} {s : SessionId}
    (ht : n.tunnels[t]? = some tunnel) (hs : tunnel.close.2 = some s) :
    n.sessionOf? (.tunnel t) = some s := by
  rw [sessionOf?, ht, Option.bind_some]
  unfold Tunnel.close at hs
  split at hs
  · cases hs
  · exact hs

theorem spares_closeSession {s : SessionId} (h : n.Spares n' hop)
    (hs : n.sessionOf? hop ≠ some s) : n.Spares (n'.closeSession s) hop := by
  refine ⟨h.tunnel, fun s' hs' => ?_⟩
  have hne : s ≠ s' := fun heq => hs (heq ▸ hs')
  rw [← h.session s' hs']
  simp [closeSession, hne]

/-- Closing a hop leaves those alone that have nothing in common with it. -/
theorem Spares.closeHop (h : n.Spares n' hop') (hself : n.Spares n' hop) (hap : n.Apart hop hop') :
    n.Spares (n'.closeHop hop) hop' := by
  cases hop with
  | direct => exact h
  | channel s => exact spares_closeSession h fun heq => hap.session s rfl heq
  | tunnel t =>
    have hrow := hself.tunnel t rfl
    cases ht : n.tunnels[t]? with
    | none =>
      rw [ht] at hrow
      rwa [Network.closeHop, closeTunnel, hrow]
    | some tunnel =>
      rw [Network.closeHop, closeTunnel_of_row (hrow.trans ht)]
      have hset : n.Spares (n'.setTunnel t tunnel.close.1) hop' := by
        refine ⟨fun t' heq => ?_, h.session⟩
        have hne : t ≠ t' := by
          rintro rfl
          exact hap.tunnel t rfl heq
        rw [setTunnel, List.getElem?_set_ne hne]
        exact h.tunnel t' heq
      cases hs : tunnel.close.2 with
      | none => exact hset
      | some s =>
        exact spares_closeSession hset fun heq => hap.session s (sessionOf?_of_close ht hs) heq

theorem Spares.release (h : n.Spares n' hop) {r : Resource} (hself : n.Spares n' r.hop)
    (hap : n.Apart r.hop hop) : n.Spares (n'.release r) hop := by
  have htold : n.Spares (n'.closeService r.service) hop := h.congr rfl rfl
  exact htold.closeHop (hself.congr rfl rfl) hap

@[simp] theorem now_release (n : Network) (r : Resource) : (n.release r).now = n.now :=
  now_closeHop _ _

theorem log_release {r : Resource} (h : n.Spares n' r.hop) :
    (n'.release r).log = ((n.closes r).map (n'.now, ·)).reverse ++ n'.log := by
  have hself : n.Spares (n'.closeService r.service) r.hop := h.congr rfl rfl
  rw [release, log_closeHop hself]
  simp [closes, closeService, record]

end Network

end ConnectionBroker
