import ConnectionBroker.Config.Connection

/-!
# SSH targets

An `SshTarget` is the host that a connection is tunnelled through, with the login used there.
-/

namespace ConnectionBroker

/-- How the broker authenticates at an SSH host. -/
inductive SshAuth where
  | password (password : String)
  | publicKey (privateKeyPath : String) (passphrase : Option String)
  /-- Whatever identities the local SSH agent offers. -/
  | agent
  deriving DecidableEq, Repr

/-- The host that a connection is tunnelled through. -/
structure SshTarget where
  host : String
  port : UInt16
  username : String
  auth : SshAuth
  deriving DecidableEq, Repr

namespace SshAuth

/-- The material that tells two logins of one user apart; empty for the agent. -/
def secret : SshAuth → String
  | password p => "password:" ++ p
  | publicKey path passphrase =>
    "key:" ++ toString path.utf8ByteSize ++ ":" ++ path ++ ":" ++ passphrase.getD ""
  | agent => ""

/-- The name of the kind of login. -/
def kind : SshAuth → String
  | password _ => "password"
  | publicKey _ _ => "publicKey"
  | agent => "agent"

end SshAuth

namespace SshTarget

/-- The port of an SSH host that none is given for. -/
def defaultPort : UInt16 := 22

/-- A target with a password login. -/
def withPassword (host : String) (port : UInt16) (username password : String) : SshTarget :=
  ⟨host, port, username, .password password⟩

/-- A target with a key login. -/
def withPublicKey (host : String) (port : UInt16) (username privateKeyPath : String)
    (passphrase : Option String) : SshTarget :=
  ⟨host, port, username, .publicKey privateKeyPath passphrase⟩

/-- The host and the port. -/
def address (t : SshTarget) : String :=
  hostAndPort t.host t.port

/-- The login, for descriptions. -/
def login (t : SshTarget) : String :=
  t.username ++ "@" ++ t.address

end SshTarget

end ConnectionBroker
