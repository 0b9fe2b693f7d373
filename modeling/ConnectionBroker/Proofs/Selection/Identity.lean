import Mathlib.Data.Set.Function
import ConnectionBroker.Proofs.Selection.Framing

/-!
# Fingerprints tell identities apart

A request has an identity : what is left of it when the engine is written in its one way, the
driver parameters are left out and a missing passphrase counts as an empty one. Two requests have
one fingerprint just when they have one identity (`compute_eq_iff`).

A key is the text of seventeen fields, some of which may be missing (`text_computeWith`), so equal
keys have equal fields. Three fields are digests of the key so far with a secret, so the fields are
compared in order : what comes before a digest is the same already when the digests are compared,
and then the secrets are the same too. Of the digest nothing is asked but that it tells apart the
texts that it is given for these two requests (`digested`).
-/

namespace ConnectionBroker

/-- What counts of a config for the identity of a connection : all but the driver parameters, with
the engine written in its one way. -/
def ConnectionConfig.identity (c : ConnectionConfig) : ConnectionConfig :=
  { c with engine := c.engineKey, dsnAppend := "" }

/-- What counts of a target for the identity of a connection : no passphrase is an empty one. -/
def SshTarget.identity (t : SshTarget) : SshTarget :=
  { t with auth := t.auth.identity }

namespace Fingerprint

variable {digest : String → String} {c c₁ c₂ : ConnectionConfig} {s₁ s₂ : Option SshTarget}

/-! ## The keys on the way -/

/-- The key of the database, without a login. -/
def databaseKey (c : ConnectionConfig) : String :=
  (databaseParts c).foldl addSet
    (addPart (addPart (addPart "database" "engine" c.engineKey) "host" c.host) "port"
      (portText c.port))

/-- The key up to the user name. -/
def userKey (digest : String → String) (c : ConnectionConfig) : String :=
  addSecret digest (databaseKey c) ("user", c.username)

/-- The key up to the password. -/
def loginKey (digest : String → String) (c : ConnectionConfig) : String :=
  addSecret digest (userKey digest c) ("pass", c.password)

/-- The key without an SSH hop. -/
def configKey (digest : String → String) (c : ConnectionConfig) : String :=
  (tlsParts c).foldl addSet (loginKey digest c)

/-- The key up to the user name at the SSH host. -/
def targetKey (digest : String → String) (c : ConnectionConfig) (t : SshTarget) : String :=
  addPart (addPart (configKey digest c) "ssh" t.address) "sshuser" t.username

theorem computeWith_none (digest : String → String) (c : ConnectionConfig) :
    computeWith digest c none = ⟨configKey digest c⟩ :=
  rfl

theorem computeWith_some (digest : String → String) (c : ConnectionConfig) (t : SshTarget) :
    computeWith digest c (some t) =
      ⟨addSecret digest (targetKey digest c t) ("sshauth", t.auth.secret)⟩ :=
  rfl

/-- The text that is digested for a secret, if there is one. -/
def digestedFor (key secret : String) : List String :=
  if secret = "" then [] else [key ++ secret]

/-- The texts that are digested for the key of a request. -/
def digested (digest : String → String) (c : ConnectionConfig) (ssh : Option SshTarget) :
    List String :=
  digestedFor (databaseKey c) c.username ++ digestedFor (userKey digest c) c.password ++
    ssh.toList.flatMap fun t => digestedFor (targetKey digest c t) t.auth.secret

/-! ## The fields of a key -/

/-- A value, unless it is empty. -/
def unlessEmpty (v : String) : Option String :=
  if v = "" then none else some v

/-- The digest of a secret after a key, unless the secret is empty. -/
def sealedWith (digest : String → String) (key secret : String) : Option String :=
  if secret = "" then none else some (digest (key ++ secret))

/-- The fields of a key, those that are missing included. -/
def fields (digest : String → String) (c : ConnectionConfig) (ssh : Option SshTarget) :
    List (String × Option String) :=
  [("engine", some c.engineKey), ("host", some c.host), ("port", some (portText c.port)),
    ("path", unlessEmpty c.databasePath), ("db", unlessEmpty c.database),
    ("dbname", unlessEmpty c.dbName), ("dsn", unlessEmpty c.odbcDsn),
    ("dialect", unlessEmpty c.odbcDialectName),
    ("user", sealedWith digest (databaseKey c) c.username),
    ("pass", sealedWith digest (userKey digest c) c.password),
    ("tls", unlessEmpty c.tlsConfig), ("tlsca", unlessEmpty c.tlsRootCert),
    ("tlscert", unlessEmpty c.tlsClientCert), ("tlskey", unlessEmpty c.tlsClientKey),
    ("ssh", ssh.map (·.address)), ("sshuser", ssh.map (·.username)),
    ("sshauth", ssh.bind fun t => sealedWith digest (targetKey digest c t) t.auth.secret)]

/-- The tags of the fields. -/
def tags : List String :=
  ["engine", "host", "port", "path", "db", "dbname", "dsn", "dialect", "user", "pass", "tls",
    "tlsca", "tlscert", "tlskey", "ssh", "sshuser", "sshauth"]

theorem fields_tags (digest : String → String) (c : ConnectionConfig) (ssh : Option SshTarget) :
    (fields digest c ssh).map Prod.fst = tags :=
  rfl

theorem tags_nodup : tags.Nodup := by decide

theorem colon_not_mem_tag : ∀ tag ∈ tags, ':' ∉ tag.toList := by decide

theorem addPart_append (key tag v : String) (fs : List (String × Option String)) :
    addPart key tag v ++ partsText (present fs) =
      key ++ partsText (present ((tag, some v) :: fs)) :=
  String.append_assoc

theorem addSet_append (key tag v : String) (fs : List (String × Option String)) :
    addSet key (tag, v) ++ partsText (present fs) =
      key ++ partsText (present ((tag, unlessEmpty v) :: fs)) := by
  unfold addSet unlessEmpty
  split
  · rfl
  · exact addPart_append key tag v fs

theorem addSecret_append (digest : String → String) (key tag secret : String)
    (fs : List (String × Option String)) :
    addSecret digest key (tag, secret) ++ partsText (present fs) =
      key ++ partsText (present ((tag, sealedWith digest key secret) :: fs)) := by
  unfold addSecret sealedWith
  split
  · rfl
  · exact addPart_append key tag _ fs

/-- A config's part of the key, with fields after it. -/
theorem configKey_append (digest : String → String) (c : ConnectionConfig)
    (fs : List (String × Option String)) :
    configKey digest c ++ partsText (present fs) =
      "database" ++ partsText (present ((fields digest c none).take 14 ++ fs)) := by
  simp only [configKey, tlsParts, loginKey, List.foldl_cons, List.foldl_nil, addSet_append,
    addSecret_append]
  rw [userKey, addSecret_append]
  simp only [databaseKey, databaseParts, List.foldl_cons, List.foldl_nil, addSet_append,
    addPart_append]
  rfl

/-- A key is the text of its fields. -/
theorem text_computeWith (digest : String → String) (c : ConnectionConfig)
    (ssh : Option SshTarget) :
    (computeWith digest c ssh).text = "database" ++ partsText (present (fields digest c ssh)) := by
  cases ssh with
  | none =>
    calc configKey digest c
        = configKey digest c ++
            partsText (present [("ssh", none), ("sshuser", none), ("sshauth", none)]) :=
          String.append_empty.symm
      _ = _ := configKey_append digest c _
  | some t =>
    have hseal := addSecret_append digest (targetKey digest c t) "sshauth" t.auth.secret []
    calc addSecret digest (targetKey digest c t) ("sshauth", t.auth.secret)
        = addSecret digest (targetKey digest c t) ("sshauth", t.auth.secret) ++
            partsText (present []) := String.append_empty.symm
      _ = configKey digest c ++ partsText (present [("ssh", some t.address),
            ("sshuser", some t.username),
            ("sshauth", sealedWith digest (targetKey digest c t) t.auth.secret)]) := by
          rw [hseal, targetKey, addPart_append, addPart_append]
      _ = _ := configKey_append digest c _

/-- Equal keys have equal fields. -/
theorem fields_eq_of_computeWith_eq (h : computeWith digest c₁ s₁ = computeWith digest c₂ s₂) :
    fields digest c₁ s₁ = fields digest c₂ s₂ := by
  have colonless : ∀ (c : ConnectionConfig) (s : Option SshTarget),
      ∀ p ∈ present (fields digest c s), ':' ∉ p.1.toList := by
    intro c s p hp
    have htag := tag_mem_of_mem_present hp
    rw [fields_tags] at htag
    exact colon_not_mem_tag _ htag
  have htext := congrArg Fingerprint.text h
  rw [text_computeWith, text_computeWith, String.append_right_inj] at htext
  have hparts := partsText_inj (colonless c₁ s₁) (colonless c₂ s₂) htext
  refine present_inj (by rw [fields_tags, fields_tags]) ?_ hparts
  rw [fields_tags]
  exact tags_nodup

/-! ## From fields to identities -/

theorem unlessEmpty_inj {v w : String} (h : unlessEmpty v = unlessEmpty w) : v = w := by
  unfold unlessEmpty at h
  split at h <;> split at h <;> simp_all

/-- The texts that are digested for two requests. -/
def digestedForBoth (digest : String → String) (c₁ c₂ : ConnectionConfig)
    (s₁ s₂ : Option SshTarget) : Set String :=
  {text | text ∈ digested digest c₁ s₁ ∨ text ∈ digested digest c₂ s₂}

/-- After one and the same key, two secrets with one digest are the same. -/
theorem sealedWith_inj (hinj : Set.InjOn digest (digestedForBoth digest c₁ c₂ s₁ s₂))
    {key₁ key₂ u v : String} (hkey : key₁ = key₂) (hu : digestedFor key₁ u ⊆ digested digest c₁ s₁)
    (hv : digestedFor key₂ v ⊆ digested digest c₂ s₂)
    (h : sealedWith digest key₁ u = sealedWith digest key₂ v) : u = v := by
  subst hkey
  unfold sealedWith at h
  unfold digestedFor at hu hv
  split at h <;> split at h
  · simp_all
  · cases h
  · cases h
  · rename_i hu' hv'
    rw [if_neg hu'] at hu
    rw [if_neg hv'] at hv
    have htext := hinj (.inl (hu (List.mem_singleton_self _)))
      (.inr (hv (List.mem_singleton_self _))) (Option.some.inj h)
    exact (String.append_right_inj key₁).1 htext

/-- Configs with equal fields have one identity. The two digests are compared in their order, each
with a key before it that is known to be the same. -/
theorem identity_eq_of_fields_eq (hinj : Set.InjOn digest (digestedForBoth digest c₁ c₂ s₁ s₂))
    (h : fields digest c₁ s₁ = fields digest c₂ s₂) :
    c₁.identity = c₂.identity ∧ configKey digest c₁ = configKey digest c₂ := by
  simp only [fields, List.cons.injEq, Prod.mk.injEq, true_and, and_true, Option.some.injEq] at h
  obtain ⟨hengine, hhost, hport, hpath, hdb, hdbname, hdsn, hdialect, huser, hpass, htls, htlsca,
    htlscert, htlskey, -⟩ := h
  replace hport := portText_inj hport
  replace hpath := unlessEmpty_inj hpath
  replace hdb := unlessEmpty_inj hdb
  replace hdbname := unlessEmpty_inj hdbname
  replace hdsn := unlessEmpty_inj hdsn
  replace hdialect := unlessEmpty_inj hdialect
  replace htls := unlessEmpty_inj htls
  replace htlsca := unlessEmpty_inj htlsca
  replace htlscert := unlessEmpty_inj htlscert
  replace htlskey := unlessEmpty_inj htlskey
  have hdatabase : databaseKey c₁ = databaseKey c₂ := by
    simp only [databaseKey, databaseParts, hengine, hhost, hport, hpath, hdb, hdbname, hdsn,
      hdialect]
  have husername : c₁.username = c₂.username :=
    sealedWith_inj hinj hdatabase (by simp [digested]) (by simp [digested]) huser
  have huserKey : userKey digest c₁ = userKey digest c₂ := by
    rw [userKey, userKey, hdatabase, husername]
  have hpassword : c₁.password = c₂.password :=
    sealedWith_inj hinj huserKey (by simp [digested]) (by simp [digested]) hpass
  refine ⟨?_, ?_⟩
  · simp only [ConnectionConfig.identity, hengine, hhost, hport, hpath, hdb, hdbname, hdsn,
      hdialect, husername, hpassword, htls, htlsca, htlscert, htlskey]
  · simp only [configKey, loginKey, tlsParts, huserKey, hpassword, htls, htlsca, htlscert, htlskey]

/-- Targets with equal fields after one key have one identity. -/
theorem target_identity_eq_of_fields_eq
    (hinj : Set.InjOn digest (digestedForBoth digest c₁ c₂ s₁ s₂))
    (hkey : configKey digest c₁ = configKey digest c₂)
    (h : fields digest c₁ s₁ = fields digest c₂ s₂) :
    s₁.map SshTarget.identity = s₂.map SshTarget.identity := by
  simp only [fields, List.cons.injEq, Prod.mk.injEq, true_and, and_true, Option.some.injEq] at h
  obtain ⟨-, -, -, -, -, -, -, -, -, -, -, -, -, -, hssh, husername, hauth⟩ := h
  cases s₁ with
  | none =>
    cases s₂ with
    | none => rfl
    | some t₂ => cases hssh
  | some t₁ =>
    cases s₂ with
    | none => cases hssh
    | some t₂ =>
      have haddress : t₁.address = t₂.address := Option.some.inj hssh
      obtain ⟨hhost, hport⟩ := hostAndPort_inj haddress
      replace husername : t₁.username = t₂.username := Option.some.inj husername
      have htarget : targetKey digest c₁ t₁ = targetKey digest c₂ t₂ := by
        rw [targetKey, targetKey, hkey, haddress, husername]
      have hsecret : t₁.auth.secret = t₂.auth.secret :=
        sealedWith_inj hinj htarget (by simp [digested]) (by simp [digested]) hauth
      simp only [Option.map_some, SshTarget.identity, hhost, hport, husername,
        SshAuth.secret_inj hsecret]

/-! ## From identities to keys -/

/-- The key of a request depends on its identity only. -/
theorem computeWith_eq_of_identity_eq (digest : String → String)
    (hc : c₁.identity = c₂.identity) (hs : s₁.map SshTarget.identity = s₂.map SshTarget.identity) :
    computeWith digest c₁ s₁ = computeWith digest c₂ s₂ := by
  simp only [ConnectionConfig.identity, ConnectionConfig.mk.injEq, and_true] at hc
  obtain ⟨hengine, hhost, hport, hpath, hdb, hdbname, hdsn, hdialect, huser, hpass, htls, htlsca,
    htlscert, htlskey⟩ := hc
  have hkey : configKey digest c₁ = configKey digest c₂ := by
    simp only [configKey, loginKey, userKey, databaseKey, databaseParts, tlsParts, *]
  cases s₁ with
  | none =>
    cases s₂ with
    | none => rw [computeWith_none, computeWith_none, hkey]
    | some t₂ => cases hs
  | some t₁ =>
    cases s₂ with
    | none => cases hs
    | some t₂ =>
      simp only [Option.map_some, Option.some.injEq, SshTarget.identity, SshTarget.mk.injEq] at hs
      obtain ⟨hhost', hport', huser', hauth⟩ := hs
      have hsecret : t₁.auth.secret = t₂.auth.secret := by
        rw [← SshAuth.secret_identity, hauth, SshAuth.secret_identity]
      simp only [computeWith_some, targetKey, SshTarget.address, hkey, hhost', hport', huser',
        hsecret]

/-- Where the digest tells apart the texts that it is given for two requests, they have one key
just when they have one identity. -/
theorem computeWith_eq_iff (hinj : Set.InjOn digest (digestedForBoth digest c₁ c₂ s₁ s₂)) :
    computeWith digest c₁ s₁ = computeWith digest c₂ s₂ ↔
      c₁.identity = c₂.identity ∧ s₁.map SshTarget.identity = s₂.map SshTarget.identity := by
  constructor
  · intro h
    have hfields := fields_eq_of_computeWith_eq h
    obtain ⟨hc, hkey⟩ := identity_eq_of_fields_eq hinj hfields
    exact ⟨hc, target_identity_eq_of_fields_eq hinj hkey hfields⟩
  · rintro ⟨hc, hs⟩
    exact computeWith_eq_of_identity_eq digest hc hs

/-- Where SHA-256 tells apart the texts that are digested for two requests, they have one
fingerprint just when they have one identity : the same engine but for blanks around it and the
case of its letters, the same values in every other field but the driver parameters, and no SSH
host or the same one with the same login, where no passphrase is an empty one. -/
theorem compute_eq_iff (c₁ c₂ : ConnectionConfig) (s₁ s₂ : Option SshTarget)
    (hinj : Set.InjOn Sha256.hexDigest (digestedForBoth Sha256.hexDigest c₁ c₂ s₁ s₂)) :
    compute c₁ s₁ = compute c₂ s₂ ↔
      c₁.identity = c₂.identity ∧ s₁.map SshTarget.identity = s₂.map SshTarget.identity :=
  computeWith_eq_iff hinj

/-- A config with a password. -/
def plainConfig : ConnectionConfig :=
  (ConnectionConfig.new "pg" "db" 5432).withCredentials "" "p"

/-- The same config, written in another way. -/
def wordyConfig : ConnectionConfig :=
  { plainConfig with engine := " PG ", dsnAppend := "&x=1" }

/-- A login by key without a passphrase, or with an empty one. -/
def keyTarget (passphrase : Option String) : SshTarget :=
  .withPublicKey "bastion" 22 "ops" "id" passphrase

/-- The two texts that are digested for either way to write the request have two digests, so the
request has one fingerprint. -/
theorem compute_eq_of_wordy :
    Set.InjOn Sha256.hexDigest (digestedForBoth Sha256.hexDigest plainConfig wordyConfig
      (some (keyTarget none)) (some (keyTarget (some "")))) ∧
    compute plainConfig (some (keyTarget none)) =
      compute wordyConfig (some (keyTarget (some ""))) := by
  have hengine : wordyConfig.engineKey = plainConfig.engineKey := by decide
  have htexts : digested Sha256.hexDigest wordyConfig (some (keyTarget (some ""))) =
      digested Sha256.hexDigest plainConfig (some (keyTarget none)) := by
    simp only [digested, targetKey, configKey, loginKey, userKey, databaseKey, hengine]
    rfl
  have hdistinct : ((digested Sha256.hexDigest plainConfig (some (keyTarget none))).map
      Sha256.hexDigest).Nodup := by decide +kernel
  have hinj : Set.InjOn Sha256.hexDigest (digestedForBoth Sha256.hexDigest plainConfig wordyConfig
      (some (keyTarget none)) (some (keyTarget (some "")))) := by
    intro text h text' h' heq
    exact List.inj_on_of_nodup_map hdistinct (h.elim id (htexts ▸ ·)) (h'.elim id (htexts ▸ ·)) heq
  exact ⟨hinj, (compute_eq_iff _ _ _ _ hinj).2 ⟨by decide, by decide⟩⟩

end Fingerprint

end ConnectionBroker
