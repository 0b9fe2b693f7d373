import ConnectionBroker.Proofs.Network.Steady

/-!
# Dead hops

A hop is dead when it answers that it is not alive (`Network.Dead`). Whoever asks a hop, tells a
service to close or closes a hop brings nothing back : what was dead before is dead afterwards, and
no time has passed (`Network.Wanes`). A session with a budget of checks is no exception, for it can
only use the budget up. So a hop that is alive at the end of a few such steps was alive all along.
-/

namespace ConnectionBroker

namespace Session

/-- A session that is dead is asked without a trace. -/
theorem check_of_dead {s : Session} {now : Nat} (h : (s.check now).1 = false) :
    (s.check now).2 = s := by
  unfold check at h ⊢
  by_cases hlive : (s.intact && s.inTime now) = true
  · rw [if_pos hlive] at h ⊢
    split at h
    · cases h
    · rfl
    · cases h
  · rw [if_neg hlive]

/-- A closed session is dead. -/
theorem check_close (s : Session) (now : Nat) : (s.close.check now).1 = false := by
  simp [check, close, intact]

end Session

/-- A closed tunnel stands on no session. -/
theorem Tunnel.vitalSession_close (t : Tunnel) : t.close.1.vitalSession = none := by
  by_cases hclosed : t.state = .closed <;> simp [close, vitalSession, hclosed]

namespace Network

variable {n n' n'' : Network} {hop : Hop}

/-- The hop answers that it is not alive. -/
def Dead (n : Network) (hop : Hop) : Prop :=
  (n.checkHop hop).1 = false

instance (n : Network) (hop : Hop) : Decidable (n.Dead hop) :=
  inferInstanceAs (Decidable (_ = _))

theorem not_dead_iff : ¬n.Dead hop ↔ (n.checkHop hop).1 = true := by
  simp [Dead]

/-- The session whose life decides whether a tunnel is alive. -/
def vital? (n : Network) (t : TunnelId) : Option SessionId :=
  n.tunnels[t]?.bind Tunnel.vitalSession

theorem checkSession_eq_false_iff {s : SessionId} :
    (n.checkSession s).1 = false ↔
      ∀ row, n.sessions[s]? = some row → (row.check n.now).1 = false := by
  unfold checkSession
  cases n.sessions[s]? <;> simp

/-- No time passes, and nothing comes back to life. -/
structure Wanes (n n' : Network) : Prop where
  now : n'.now = n.now
  session : ∀ s, (n.checkSession s).1 = false → (n'.checkSession s).1 = false
  vital : ∀ t s, n'.vital? t = some s → n.vital? t = some s

namespace Wanes

theorem refl (n : Network) : n.Wanes n :=
  ⟨rfl, fun _ h => h, fun _ _ h => h⟩

theorem trans (h : n.Wanes n') (h' : n'.Wanes n'') : n.Wanes n'' :=
  ⟨h'.now.trans h.now, fun s hs => h'.session s (h.session s hs),
    fun t s ht => h.vital t s (h'.vital t s ht)⟩

/-- A dead hop stays dead. -/
theorem dead (h : n.Wanes n') (hdead : n.Dead hop) : n'.Dead hop := by
  cases hop with
  | direct => cases hdead
  | channel s => exact h.session s hdead
  | tunnel t =>
    have htunnel : ∀ m : Network, m.Dead (.tunnel t) ↔
        ∀ s, m.vital? t = some s → (m.checkSession s).1 = false := by
      intro m
      simp only [Dead, checkHop, checkTunnel, vital?]
      cases m.tunnels[t]?.bind Tunnel.vitalSession <;> simp
    rw [htunnel] at hdead ⊢
    exact fun s hs => h.session s (hdead s (h.vital t s hs))

/-- Sessions change, each in such a way that it is dead if it was. -/
theorem of_sessions (hnow : n'.now = n.now) (htunnels : n'.tunnels = n.tunnels)
    (hrows : ∀ (s : SessionId) (row' : Session), n'.sessions[s]? = some row' →
      ∃ row, n.sessions[s]? = some row ∧
        ((row.check n.now).1 = false → (row'.check n.now).1 = false)) : n.Wanes n' := by
  refine ⟨hnow, fun s hs => checkSession_eq_false_iff.2 fun row' hrow' => ?_, fun t s ht => ?_⟩
  · obtain ⟨row, hrow, hdead⟩ := hrows s row' hrow'
    rw [hnow]
    exact hdead (checkSession_eq_false_iff.1 hs row hrow)
  · rwa [vital?, htunnels] at ht

theorem checkSession (n : Network) (s : SessionId) : n.Wanes (n.checkSession s).2 := by
  unfold Network.checkSession
  split
  · rename_i session hsession
    refine of_sessions rfl rfl fun s' row' hrow' => ?_
    dsimp only at hrow'
    by_cases hs : s = s'
    · subst hs
      obtain ⟨hlt, -⟩ := List.getElem?_eq_some_iff.1 hsession
      obtain rfl : (session.check n.now).2 = row' := by simpa [hlt] using hrow'
      exact ⟨session, hsession, fun hdead => by rwa [Session.check_of_dead hdead]⟩
    · rw [List.getElem?_set_ne hs] at hrow'
      exact ⟨row', hrow', fun hdead => hdead⟩
  · exact refl n

theorem checkHop (n : Network) (hop : Hop) : n.Wanes (n.checkHop hop).2 := by
  cases hop with
  | direct => exact refl n
  | channel s => exact checkSession n s
  | tunnel t =>
    simp only [Network.checkHop, checkTunnel]
    split
    · exact checkSession n _
    · exact refl n

theorem closeService (n : Network) (s : ServiceId) : n.Wanes (n.closeService s) :=
  of_sessions rfl rfl fun _ row hrow => ⟨row, hrow, fun h => h⟩

theorem closeSession (n : Network) (s : SessionId) : n.Wanes (n.closeSession s) := by
  refine of_sessions rfl rfl fun s' row' hrow' => ?_
  rw [Network.closeSession, List.getElem?_modify] at hrow'
  by_cases hs : s = s'
  · subst hs
    obtain ⟨row, hrow, rfl⟩ : ∃ row, n.sessions[s]? = some row ∧ row.close = row' := by
      simpa using hrow'
    exact ⟨row, hrow, fun _ => row.check_close n.now⟩
  · exact ⟨row', by simpa [hs] using hrow', fun h => h⟩

theorem closeTunnel (n : Network) (t : TunnelId) : n.Wanes (n.closeTunnel t) := by
  cases ht : n.tunnels[t]? with
  | none =>
    rw [Network.closeTunnel, ht]
    exact refl n
  | some tunnel =>
    rw [closeTunnel_of_row ht]
    have hset : n.Wanes (n.setTunnel t tunnel.close.1) := by
      have hasked : ∀ s, (n.setTunnel t tunnel.close.1).checkSession s =
          ((n.checkSession s).1, (n.checkSession s).2.setTunnel t tunnel.close.1) := by
        intro s
        simp only [Network.checkSession, setTunnel]
        split <;> rfl
      refine ⟨rfl, fun s h => by rw [hasked, h], fun t' s hvital => ?_⟩
      rw [vital?, setTunnel] at hvital
      by_cases htt : t = t'
      · subst htt
        obtain ⟨hlt, -⟩ := List.getElem?_eq_some_iff.1 ht
        simp [hlt, tunnel.vitalSession_close] at hvital
      · rwa [List.getElem?_set_ne htt] at hvital
    cases tunnel.close.2 with
    | none => exact hset
    | some s => exact hset.trans (closeSession _ s)

theorem closeHop (n : Network) (hop : Hop) : n.Wanes (n.closeHop hop) := by
  cases hop with
  | direct => exact refl n
  | channel s => exact closeSession n s
  | tunnel t => exact closeTunnel n t

end Wanes

end Network

end ConnectionBroker
