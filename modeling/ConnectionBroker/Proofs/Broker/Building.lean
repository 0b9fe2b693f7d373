import ConnectionBroker.Proofs.Network.Ledger

/-!
# What a build holds

A build holds a tunnel, a hop or nothing yet, and a service once it has asked for one (`Stake`).
With every answer it gives what it held for what it goes on with, and when it fails it has closed
all of it (`Construction.trades_resume`) : the books balance before and after, whatever else is in
them (`Trades`).
-/

namespace ConnectionBroker

/-- What a build holds. -/
structure Stake where
  holding : Option Holding
  /-- The service that the factory is asked for. -/
  service : Option ServiceId

/-- Nothing. -/
def Stake.empty : Stake :=
  ⟨none, none⟩

/-- What a build holds while it waits. -/
def Construction.stake : Construction → Stake
  | .session _ _ => .empty
  | .tunnelSession _ _ t => ⟨some (.starting t), none⟩
  | .localPort _ t s => ⟨some (.pending t s), none⟩
  | .service hop _ s => ⟨some (.hop hop), some s⟩

/-- What a build leaves that has ended. -/
def Cache.Built.stake : Cache.Built → Stake
  | .resource r => ⟨some (.hop r.hop), some r.service⟩
  | .failed _ => .empty
  | .panicked => .empty

/-- What a build holds after an answer. -/
def Progress.stake : Progress Construction → Stake
  | .waiting build => build.stake
  | .ended b => b.stake

/-- The books : what is held, which services there are and which of them were told to close,
against the accounts of the network. -/
structure Balanced (a : Accounts) (held : Multiset Holding) (services told : Multiset ServiceId) :
    Prop where
  ledger : Ledger a held
  /-- No service is there twice. -/
  apart : services.Nodup
  known : ∀ s ∈ services, s < a.services
  told_eq : (a.closedServices : Multiset ServiceId) = told

/-- Whoever has the one stake may have the other one instead. -/
def Trades (a a' : Accounts) (k k' : Stake) : Prop :=
  ∀ held services told,
    Balanced a (ofOption k.holding + held) (ofOption k.service + services) told →
      Balanced a' (ofOption k'.holding + held) (ofOption k'.service + services) told

namespace Trades

variable {a a' a'' : Accounts} {k k' k'' : Stake} {x x' : Option Holding} {s : Option ServiceId}

theorem trans (h : Trades a a' k k') (h' : Trades a' a'' k' k'') : Trades a a'' k k'' :=
  fun held services told hb => h' held services told (h held services told hb)

/-- Only the holding changes, and the accounts with it. -/
theorem of_ledger {sessions : Nat} {tunnels : List TunnelPhase} {closed : List SessionId}
    (ha : a' = ⟨sessions, a.services, tunnels, closed, a.closedServices⟩)
    (h : ∀ held, Ledger a (ofOption x + held) →
      Ledger ⟨sessions, a.services, tunnels, closed, a.closedServices⟩ (ofOption x' + held)) :
    Trades a a' ⟨x, s⟩ ⟨x', s⟩ := by
  subst ha
  exact fun held _ _ hb => ⟨h held hb.ledger, hb.apart, hb.known, hb.told_eq⟩

end Trades

namespace Construction

variable {n : Network}

/-- The factory is asked for a service that nobody has. -/
theorem trades_askFactory (hop : Hop) (e : Endpoint) (n : Network) :
    Trades n.accounts (askFactory hop e n).2.accounts ⟨some (.hop hop), none⟩
      (askFactory hop e n).1.stake := by
  intro held services told hb
  have hnew : ∀ s ∈ services, s ≠ n.services.length := fun s hs =>
    Nat.ne_of_lt (hb.known s (Multiset.mem_add.2 (.inr hs)))
  have hask : (askFactory hop e n).2.accounts =
      { n.accounts with services := n.accounts.services + 1 } := n.accounts_askService e
  rw [hask]
  refine ⟨hb.ledger.congr rfl rfl rfl, ?_, ?_, hb.told_eq⟩
  · refine Multiset.nodup_add.2 ⟨nodup_ofOption _, ?_, ?_⟩
    · simpa using hb.apart
    · exact Multiset.disjoint_left.2 @fun s hs hs' =>
        hnew s hs' (Option.some.inj (mem_ofOption.1 hs)).symm
  · intro s hs
    rcases Multiset.mem_add.1 hs with hs | hs
    · obtain rfl : n.services.length = s := Option.some.inj (mem_ofOption.1 hs)
      exact Nat.lt_succ_self _
    · exact Nat.lt_succ_of_lt (hb.known s (Multiset.mem_add.2 (.inr hs)))

/-- Once its hop is closed, nothing is left of a build whose service was refused. -/
theorem trades_closeHop (n : Network) (hop : Hop) (s : Option ServiceId) :
    Trades n.accounts (n.closeHop hop).accounts ⟨some (.hop hop), s⟩ .empty := by
  intro held services told hb
  obtain ⟨tunnels, closed, haccounts⟩ := n.closeHop_accounts hop
  have hledger := hb.ledger.closeHop
  rw [haccounts] at hledger ⊢
  rw [Stake.empty, ofOption_none, zero_add, ofOption_none, zero_add]
  exact ⟨hledger, (Multiset.nodup_add.1 hb.apart).2.1,
    fun s' hs' => hb.known s' (Multiset.mem_add.2 (.inr hs')), hb.told_eq⟩

/-- A build begins with nothing. -/
theorem trades_start (r : Request) (strategy : Strategy) (n : Network) :
    Trades n.accounts (start r strategy n).2.accounts .empty (start r strategy n).1.stake := by
  have hdirect : Trades n.accounts
      (askFactory .direct (.direct r.config.withEngineDefaults .direct) n).2.accounts .empty
      (askFactory .direct (.direct r.config.withEngineDefaults .direct) n).1.stake := by
    refine .trans (.of_ledger rfl fun held hl => ?_) (trades_askFactory _ _ n)
    rw [ofOption_none, zero_add] at hl
    exact hl.direct
  unfold start
  dsimp only
  split
  · exact .of_ledger rfl fun held hl => hl
  · rename_i target _
    have hfirst : (n.addTunnel (.new target r.config.host r.config.port)).1 =
        n.accounts.tunnels.length := by simp [Network.addTunnel, Network.accounts]
    have hstart := n.accounts_start target r.config.host r.config.port
    rw [Network.accounts_askSession]
    refine .of_ledger hstart fun held hl => ?_
    rw [ofOption_none, zero_add] at hl
    rw [hfirst]
    exact hl.start
  · exact hdirect

/-- The session that a build waits for is opened and taken. -/
theorem trades_connected {k : Construction} {target : SshTarget} (hk : k.target? = some target)
    {n n' : Network}
    (hn : n'.accounts = { n.accounts with sessions := n.accounts.sessions + 1 }) :
    Trades n.accounts (k.resume (.session (.ok n.sessions.length)) n').2.accounts k.stake
      (k.resume (.session (.ok n.sessions.length)) n').1.stake := by
  cases k with
  | session config target =>
    refine .trans ?_ (trades_askFactory _ _ n')
    refine .of_ledger hn fun held hl => ?_
    rw [ofOption_none, zero_add] at hl
    exact hl.openChannel
  | tunnelSession config target t =>
    intro held services told hb
    have hfits : n.accounts.tunnels[t]? = some (.starting, none) := hb.ledger.fits_of_held
    have hphase : n'.accounts.tunnels[t]? = some (.starting, none) := by rw [hn]; exact hfits
    have hresume : (tunnelSession config target t).resume (.session (.ok n.sessions.length)) n' =
        (.waiting (.localPort config t n.sessions.length), n') := by
      simp [resume, Network.tunnelConnected_ok hphase]
    rw [hresume]
    refine Trades.of_ledger (x := some (.starting t)) hn (fun held hl => ?_) held services told hb
    exact hl.connect
  | localPort config t s => cases hk
  | service hop e s => cases hk

/-- A build goes on with any other answer. What it gives up is closed. -/
theorem trades_resume (k : Construction) {a : Answer} (ha : ∀ s, a ≠ .session (.ok s))
    (n : Network) : Trades n.accounts (k.resume a n).2.accounts k.stake (k.resume a n).1.stake := by
  intro held services told hb
  unfold resume
  split
  · exact absurd rfl (ha _)
  · exact hb
  · rename_i config target t r
    cases r with
    | ok s => exact absurd rfl (ha s)
    | error e =>
      have hfits : n.accounts.tunnels[t]? = some (.starting, none) := hb.ledger.fits_of_held
      obtain ⟨n', hconnect, haccounts⟩ := Network.tunnelConnected_error hfits e
      simp only [hconnect]
      refine Trades.of_ledger haccounts (fun held hl => ?_) held services told hb
      rw [ofOption_none, zero_add]
      exact hl.giveUp
  · rename_i config t s r
    have hfits : n.accounts.tunnels[t]? = some (.starting, none) := hb.ledger.fits_of_held
    cases r with
    | ok port =>
      obtain ⟨n', hlisten, haccounts⟩ := Network.tunnelListening_ok hfits nofun s port
      simp only [hlisten]
      refine Trades.trans (.of_ledger haccounts fun held hl => ?_)
        (trades_askFactory (.tunnel t) _ n') held services told hb
      exact hl.listen
    | error e =>
      obtain ⟨answer, n', hlisten, haccounts⟩ := Network.tunnelListening_error hfits s e
      simp only [hlisten]
      refine Trades.of_ledger haccounts (fun held hl => ?_) held services told hb
      rw [ofOption_none, zero_add]
      exact hl.withdraw
  · exact hb
  · exact trades_closeHop n _ _ held services told hb
  · exact hb

end Construction

end ConnectionBroker
