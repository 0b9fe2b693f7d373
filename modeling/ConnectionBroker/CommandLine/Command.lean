import ConnectionBroker.CommandLine.Options
import ConnectionBroker.Config.SshTarget

/-!
# Commands

The commands of the program and the command lines that ask for them. `Invocation.ofArguments`
says what a command line asks for: a command, the version, an explanation, or nothing sensible.
-/

namespace ConnectionBroker.CommandLine

/-- What the program can be asked to do. -/
inductive Command where
  /-- Shows the cache key and the strategy of a request. -/
  | fingerprint (config : ConnectionConfig) (target : Option SshTarget)
  /-- Reaches out to the database of a request. -/
  | check (config : ConnectionConfig) (target : Option SshTarget)
  /-- Forwards a local port to an endpoint. -/
  | tunnel (host : String) (port : UInt16) (target : Option SshTarget)
  deriving DecidableEq, Repr

/-- The names of the commands. -/
inductive CommandName where
  | fingerprint
  | check
  | tunnel
  deriving DecidableEq, Repr

/-- The options that say which database is meant. -/
def databaseRules : List OptionRule :=
  [⟨"engine", .text, .required, "Engine identifier (pg, mysql, oracle, dameng, ...)"⟩,
    ⟨"host", .text, .default (.text ""), "Database host"⟩,
    ⟨"port", .port, .default (.port 0), "Database port"⟩,
    ⟨"database", .text, .default (.text ""), "Database / schema name"⟩,
    ⟨"path", .text, .default (.text ""), "Database file, for file based engines"⟩,
    ⟨"user", .text, .default (.text ""), "Database user"⟩,
    ⟨"password", .text, .default (.text ""), "Password of the database user"⟩]

/-- The options that say which SSH host is tunnelled through. -/
def sshRules : List OptionRule :=
  [⟨"ssh-host", .text, .optional, "SSH server to hop through; no hop when omitted"⟩,
    ⟨"ssh-port", .port, .default (.port SshTarget.defaultPort), "SSH server port"⟩,
    ⟨"ssh-user", .text, .default (.text ""), "Username for SSH authentication"⟩,
    ⟨"ssh-password", .text, .optional, "Password for SSH authentication"⟩,
    ⟨"ssh-key", .text, .optional,
      "Private key file; the ssh-agent is used when neither key nor password is given"⟩]

/-- The options that say which endpoint is forwarded to. -/
def endpointRules : List OptionRule :=
  [⟨"host", .text, .required, "Target host as seen from the SSH server"⟩,
    ⟨"port", .port, .required, "Target port as seen from the SSH server"⟩]

namespace Options

/-- The config that the options describe. -/
def config (o : Options) : ConnectionConfig :=
  { ConnectionConfig.new (o.text "engine") (o.text "host") (o.port "port") with
    database := o.text "database"
    databasePath := o.text "path"
    username := o.text "user"
    password := o.text "password" }

/-- The login at the SSH host: a password comes before a key, and the agent is asked if there is
neither. -/
def auth (o : Options) : SshAuth :=
  match o.text? "ssh-password", o.text? "ssh-key" with
  | some password, _ => .password password
  | none, some key => .publicKey key none
  | none, none => .agent

/-- The SSH host to be tunnelled through, if one is named. -/
def target (o : Options) : Option SshTarget :=
  (o.text? "ssh-host").map fun host => ⟨host, o.port "ssh-port", o.text "ssh-user", o.auth⟩

end Options

namespace CommandName

/-- The names in the order in which they are explained. -/
def all : List CommandName :=
  [.fingerprint, .check, .tunnel]

/-- The name as it is written. -/
def text : CommandName → String
  | fingerprint => "fingerprint"
  | check => "check"
  | tunnel => "tunnel"

/-- What the command does. -/
def help : CommandName → String
  | fingerprint => "Print the cache key and connection strategy for a request"
  | check => "Build a reachability probe through the broker and print what it saw"
  | tunnel => "Forward a local port to host:port behind an SSH server until Ctrl+C"

/-- The options of the command. -/
def rules : CommandName → List OptionRule
  | fingerprint => databaseRules ++ sshRules
  | check => databaseRules ++ sshRules
  | tunnel => endpointRules ++ sshRules

/-- The command that the options describe. -/
def command (c : CommandName) (o : Options) : Command :=
  match c with
  | fingerprint => .fingerprint o.config o.target
  | check => .check o.config o.target
  | tunnel => .tunnel (o.text "host") (o.port "port") o.target

/-- The command of that name. -/
def ofText? (s : String) : Option CommandName :=
  all.find? (·.text == s)

end CommandName

/-- What is to be explained. -/
inductive HelpTopic where
  | program
  | command (c : CommandName)
  /-- The explanations themselves. -/
  | help
  deriving DecidableEq, Repr

/-- What a command line asks for. -/
inductive Invocation where
  | command (c : Command)
  | version
  | help (topic : HelpTopic)
  | misuse (e : UsageError)
  deriving DecidableEq, Repr

namespace Invocation

/-- What a command line asks for that has these arguments after the name of the command. -/
def ofCommand (c : CommandName) (arguments : List String) : Invocation :=
  match Options.read c.rules arguments with
  | .ok o => .command (c.command o)
  | .error .help => .help (.command c)
  | .error (.misuse e) => .misuse e

/-- What a command line asks for that has these arguments after the word for explanations. -/
def ofHelp : List String → Invocation
  | [] => .help .program
  | [name] =>
    if name = "help" then .help .help
    else
      match CommandName.ofText? name with
      | some c => .help (.command c)
      | none => .misuse (.unknownCommand name)
  | name :: surplus :: _ =>
    if name = "help" ∨ (CommandName.ofText? name).isSome then .misuse (.unknownCommand surplus)
    else .misuse (.unknownCommand name)

/-- What a command line asks for. -/
def ofArguments : List String → Invocation
  | [] => .misuse .noCommand
  | argument :: rest =>
    match Argument.ofText argument with
    | .plain name =>
      if name = "help" then ofHelp rest
      else
        match CommandName.ofText? name with
        | some c => ofCommand c rest
        | none => .misuse (.unknownCommand name)
    | .long "help" none => .help .program
    | .long "version" none => .version
    | .long name (some _) =>
      if name = "help" ∨ name = "version" then .misuse (.valueUnexpected name)
      else .misuse (.unexpected argument)
    | .long _ none => .misuse (.unexpected argument)
    | .short flag =>
      if flag = 'h' then .help .program
      else if flag = 'V' then .version
      else .misuse (.unexpected argument)
    | .terminator => .misuse .noCommand

end Invocation

end ConnectionBroker.CommandLine
