import ConnectionBroker.Config.SshTarget
import ConnectionBroker.Digest.Sha256

/-!
# Fingerprints

A `Fingerprint` is the key of a logical connection: equal for requests that would reach the same
database as the same user over the same SSH host. It is a text of parts `-tag:length:value`, the
length counted in UTF-8 bytes, so that a value that looks like a part does not run into the next
one. A secret enters as the digest of the key so far followed by the secret, so the key never
holds a secret and the digest depends on everything before it.

`Fingerprint.computeWith` takes the digest as a parameter; `Fingerprint.compute` uses SHA-256.
-/

namespace ConnectionBroker

/-- The key of a logical connection. -/
structure Fingerprint where
  text : String
  deriving DecidableEq, Repr

namespace Fingerprint

instance : LT Fingerprint := ⟨fun a b => a.text < b.text⟩

instance : DecidableLT Fingerprint := fun a b => inferInstanceAs (Decidable (a.text < b.text))

/-- How many characters of a key are shown in messages. -/
def shownLength : Nat := 48

/-- The key's first characters, for messages. -/
def short (f : Fingerprint) : String :=
  String.ofList (f.text.toList.take shownLength)

/-- The UTF-8 length of the key. -/
def byteLength (f : Fingerprint) : Nat :=
  f.text.utf8ByteSize

/-- One part of a key. -/
def part (tag value : String) : String :=
  "-" ++ tag ++ ":" ++ toString value.utf8ByteSize ++ ":" ++ value

/-- The key with one part added. -/
def addPart (key tag value : String) : String :=
  key ++ part tag value

/-- The key with a part added unless its value is empty. -/
def addSet (key : String) (tagged : String × String) : String :=
  if tagged.2 = "" then key else addPart key tagged.1 tagged.2

/-- The key with the digest of a secret added unless the secret is empty. -/
def addSecret (digest : String → String) (key : String) (tagged : String × String) : String :=
  if tagged.2 = "" then key else addPart key tagged.1 (digest (key ++ tagged.2))

/-- The values that name the database itself. -/
def databaseParts (c : ConnectionConfig) : List (String × String) :=
  [("path", c.databasePath), ("db", c.database), ("dbname", c.dbName), ("dsn", c.odbcDsn),
    ("dialect", c.odbcDialectName)]

/-- The login at the database. -/
def loginParts (c : ConnectionConfig) : List (String × String) :=
  [("user", c.username), ("pass", c.password)]

/-- The values that secure the connection. -/
def tlsParts (c : ConnectionConfig) : List (String × String) :=
  [("tls", c.tlsConfig), ("tlsca", c.tlsRootCert), ("tlscert", c.tlsClientCert),
    ("tlskey", c.tlsClientKey)]

/-- The key with the parts of the SSH hop added. -/
def addTarget (digest : String → String) (key : String) (t : SshTarget) : String :=
  let key := addPart key "ssh" t.address
  let key := addPart key "sshuser" t.username
  addSecret digest key ("sshauth", t.auth.secret)

/-- The key of a request, with the given digest of its secrets. -/
def computeWith (digest : String → String) (c : ConnectionConfig) (ssh : Option SshTarget) :
    Fingerprint :=
  let key := addPart "database" "engine" c.engineKey
  let key := addPart key "host" c.host
  let key := addPart key "port" (portText c.port)
  let key := (databaseParts c).foldl addSet key
  let key := (loginParts c).foldl (addSecret digest) key
  let key := (tlsParts c).foldl addSet key
  ⟨match ssh with
    | none => key
    | some t => addTarget digest key t⟩

/-- The key of a request. -/
def compute (c : ConnectionConfig) (ssh : Option SshTarget) : Fingerprint :=
  computeWith Sha256.hexDigest c ssh

/-- The keys in ascending order, each once. -/
def sorted (keys : List Fingerprint) : List Fingerprint :=
  (keys.mergeSort fun a b => a.text ≤ b.text).eraseReps

end Fingerprint

end ConnectionBroker
