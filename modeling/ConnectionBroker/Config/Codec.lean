import ConnectionBroker.Config.SshTarget
import ConnectionBroker.Json.Decoding
import ConnectionBroker.Json.Printer

/-!
# Connection configs and SSH targets as JSON

The shapes by which configs and targets are decoded, and their values. A config has a default for
every field. A target needs a host and a user name; its port defaults to 22 and its login to the
agent.

A login is an object whose member `kind` names its variant, wherever that member stands, with the
variant's fields beside it; or an array of the kind and the fields. What stands beside the kind
is read completely before the variant looks at it, so a fault of the text anywhere in the object
is met before a fault of the fields.
-/

namespace ConnectionBroker

/-- A whole number below `2 ^ 16` as a value. -/
def Json.ofWord16 (n : UInt16) : Json :=
  .ofNat n.toNat

/-- A whole number below `2 ^ 64` as a value. -/
def Json.ofWord64 (n : UInt64) : Json :=
  .ofNat n.toNat

namespace ConnectionConfig

/-- How a config is decoded. The engine may also be given as the type. -/
def shape : Shape ConnectionConfig where
  title := "struct ConnectionConfig"
  blank := empty
  fields :=
    [{ Field.optional "engine" Node.text fun v c => { c with engine := v } with
        aliases := ["type"] },
      .optional "host" Node.text fun v c => { c with host := v },
      .optional "port" Node.word16 fun v c => { c with port := v },
      .optional "databasePath" Node.text fun v c => { c with databasePath := v },
      .optional "database" Node.text fun v c => { c with database := v },
      .optional "dbName" Node.text fun v c => { c with dbName := v },
      .optional "odbcDsn" Node.text fun v c => { c with odbcDsn := v },
      .optional "odbcDialectName" Node.text fun v c => { c with odbcDialectName := v },
      .optional "username" Node.text fun v c => { c with username := v },
      .optional "password" Node.text fun v c => { c with password := v },
      .optional "tlsConfig" Node.text fun v c => { c with tlsConfig := v },
      .optional "tlsRootCert" Node.text fun v c => { c with tlsRootCert := v },
      .optional "tlsClientCert" Node.text fun v c => { c with tlsClientCert := v },
      .optional "tlsClientKey" Node.text fun v c => { c with tlsClientKey := v },
      .optional "dsnAppend" Node.text fun v c => { c with dsnAppend := v }]

/-- The value of a config, its members in the order of the fields. -/
def toJson (c : ConnectionConfig) : Json :=
  .object
    [("engine", .string c.engine), ("host", .string c.host), ("port", .ofWord16 c.port),
      ("databasePath", .string c.databasePath), ("database", .string c.database),
      ("dbName", .string c.dbName), ("odbcDsn", .string c.odbcDsn),
      ("odbcDialectName", .string c.odbcDialectName), ("username", .string c.username),
      ("password", .string c.password), ("tlsConfig", .string c.tlsConfig),
      ("tlsRootCert", .string c.tlsRootCert), ("tlsClientCert", .string c.tlsClientCert),
      ("tlsClientKey", .string c.tlsClientKey), ("dsnAppend", .string c.dsnAppend)]

end ConnectionConfig

namespace SshAuth

/-- The kinds of login, by the names of their variants. -/
inductive Kind where
  | password
  | publicKey
  | agent
  deriving DecidableEq, Repr

/-- The variants by name. -/
def kinds : List (String × Kind) :=
  [("password", .password), ("publicKey", .publicKey), ("agent", .agent)]

/-- The login as a message names it. -/
def title : String := "internally tagged enum SshAuth"

/-- The fields of a password login. -/
def passwordShape : Shape SshAuth where
  title := "struct variant SshAuth::Password"
  blank := .password ""
  fields := [.needed "password" Node.text fun v _ => .password v]

/-- A text or null. -/
def optionalText : Node → Except Fault (Option String)
  | .null => .ok none
  | n => n.text.map some

/-- The fields of a key login. -/
def publicKeyShape : Shape SshAuth where
  title := "struct variant SshAuth::PublicKey"
  blank := .publicKey "" none
  fields :=
    [.needed "privateKeyPath" Node.text fun v auth =>
        match auth with
        | .publicKey _ passphrase => .publicKey v passphrase
        | other => other,
      .optional "passphrase" optionalText fun v auth =>
        match auth with
        | .publicKey path _ => .publicKey path v
        | other => other]

/-- The fields of a variant. -/
def Kind.shape : Kind → Shape SshAuth
  | .password => passwordShape
  | .publicKey => publicKeyShape
  | .agent => ⟨"unit variant SshAuth::Agent", .agent, []⟩

/-- Reads the fields of a variant from an array. Each of them has to be given, and nothing else
may be. -/
def Kind.ofItems (kind : Kind) (items : List Node) : Except Fault SshAuth := do
  let shape := kind.shape
  if items.length < shape.fields.length then
    -- The fields before the missing one are read first.
    let _ ← shape.ofItems nestingLimit true 0 (shape.fields.take items.length) items shape.blank
    .error (.wrongLength items.length shape.titleWithCount)
  else
    let n := shape.fields.length
    let auth ← shape.ofItems nestingLimit true 0 shape.fields (items.take n) shape.blank
    if n < items.length then
      .error (.wrongLength items.length
        (toString n ++ (if n = 1 then " element" else " elements") ++ " in sequence"))
    else .ok auth

/-- The kind and the other members of an object, once every one of them is read. -/
def ofMembers (depth : Nat) (closed : Bool) :
    List (Node × Node) → Option Kind → List (Node × Node) → Except Fault SshAuth
  | [], none, _ => if closed then .error (.missing "kind") else .error .malformed
  | [], some kind, others =>
    if closed then kind.shape.ofMembers nestingLimit true others.reverse [] kind.shape.blank
    else .error .malformed
  | (.string key, v) :: rest, kind, others =>
    if key = "kind" then
      if kind.isSome then .error (.duplicate "kind")
      else do
        let kind ← v.variant kinds
        ofMembers depth closed rest (some kind) others
    else if (v.value? depth).isSome then
      ofMembers depth closed rest kind ((.string key, v) :: others)
    else .error .malformed
  | _ :: _, _, _ => .error .malformed

/-- Reads a login with so many containers left to open. -/
def ofNode : Nat → Node → Except Fault SshAuth
  | depth + 1, .object members closed => ofMembers depth closed members none []
  | depth + 1, .array items closed =>
    match items with
    | [] => if closed then .error (.missing "kind") else .error .malformed
    | kind :: rest => do
      let kind ← kind.variant kinds
      if closed && rest.all fun n => (n.value? depth).isSome then kind.ofItems rest
      else .error .malformed
  | 0, .object _ _ => .error .malformed
  | 0, .array _ _ => .error .malformed
  | _, n => .error (n.mismatch title)

/-- The value of a login. -/
def toJson : SshAuth → Json
  | password p => .object [("kind", .string "password"), ("password", .string p)]
  | publicKey path passphrase =>
    .object
      [("kind", .string "publicKey"), ("privateKeyPath", .string path),
        ("passphrase", match passphrase with | some p => .string p | none => .null)]
  | agent => .object [("kind", .string "agent")]

end SshAuth

namespace SshTarget

/-- How a target is decoded. -/
def shape : Shape SshTarget where
  title := "struct SshTarget"
  blank := ⟨"", defaultPort, "", .agent⟩
  fields :=
    [.needed "host" Node.text fun v t => { t with host := v },
      .optional "port" Node.word16 fun v t => { t with port := v },
      .needed "username" Node.text fun v t => { t with username := v },
      ⟨"auth", [], false, fun depth n => (SshAuth.ofNode depth n).map fun v t =>
        { t with auth := v }⟩]

/-- The value of a target. -/
def toJson (t : SshTarget) : Json :=
  .object
    [("host", .string t.host), ("port", .ofWord16 t.port), ("username", .string t.username),
      ("auth", t.auth.toJson)]

end SshTarget

end ConnectionBroker
