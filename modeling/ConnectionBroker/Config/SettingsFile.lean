import ConnectionBroker.Config.Settings
import ConnectionBroker.Files.Tree

/-!
# The settings file

Settings are kept in a JSON file. `BrokerSettings.loadFrom` takes a missing file for the defaults
and accepts nothing that does not pass `BrokerSettings.validate`; `BrokerSettings.saveTo` makes the
directories that are missing and writes whatever it is given. The file lies in the configuration
directory of the user, which two variables of the environment name (`defaultPath`).
-/

namespace ConnectionBroker

open Files (Path Tree FileError)

/-- What the environment says about the user's directories. -/
structure Environment where
  home : Option String
  configHome : Option String
  /-- The home directory of the user's account. -/
  accountHome : String

namespace Environment

/-- The user's home directory. -/
def homeDir (e : Environment) : Path :=
  match e.home with
  | some home => if home = "" then e.accountHome else home
  | none => e.accountHome

/-- The directory of the user's configuration files. A relative path does not count as one. -/
def configDir (e : Environment) : Path :=
  match e.configHome with
  | some dir => if Path.isAbsolute dir then dir else Path.join e.homeDir ".config"
  | none => Path.join e.homeDir ".config"

end Environment

namespace BrokerSettings

/-- Where the settings are kept if nothing else is said. -/
def defaultPath (e : Environment) : Path :=
  Path.join (Path.join e.configDir "dbbroker") "broker.json"

/-- Reads settings from the text of a settings file at a path. -/
def ofText (p : Path) (text : String) : Except BrokerError BrokerSettings := do
  match shape.decode text with
  | .error f =>
    .error (.settings ("could not parse " ++ Text.quote p ++ ": " ++ f.message))
  | .ok s =>
    s.validate
    return s

/-- Loads settings from a file. If there is none, they are the defaults. -/
def loadFrom (t : Tree) (p : Path) : Except BrokerError BrokerSettings :=
  match t.readText p with
  | .ok text => ofText p text
  | .error e =>
    if e.isAbsence then .ok default
    else .error (.settings ("could not read " ++ Text.quote p ++ ": " ++ e.message))

/-- Loads settings from where they are kept if nothing else is said. -/
def load (t : Tree) (e : Environment) : Except BrokerError BrokerSettings :=
  loadFrom t (defaultPath e)

/-- The settings as the text of a settings file. -/
def toText (s : BrokerSettings) : String :=
  s.toJson.pretty

/-- The directories above a file are made if they are missing. -/
def makeParents (t : Tree) (p : Path) : Except FileError Unit × Tree :=
  match Path.parent? p with
  | some parent => t.makeDirs parent
  | none => (.ok (), t)

/-- Saves settings to a file, in place of what was in it. The directories that were made stay even
where the file cannot be written. -/
def saveTo (s : BrokerSettings) (t : Tree) (p : Path) : Except BrokerError Unit × Tree :=
  match makeParents t p with
  | (.error e, t) => (.error (.io e.message), t)
  | (.ok (), t) =>
    match t.write p s.toText.toUTF8 with
    | .ok t => (.ok (), t)
    | .error e => (.error (.io e.message), t)

end BrokerSettings

end ConnectionBroker
