import ConnectionBroker.CommandLine.Command
import ConnectionBroker.Selection.Select

/-!
# Runs of the program

What a command line comes to: the exit code and the texts that are printed (`run`). A program
without an SSH library of its own can select for a request, but it can neither check one nor
forward a port.
-/

namespace ConnectionBroker.CommandLine

/-- What a run leaves behind. -/
structure Outcome where
  code : UInt8
  stdout : String
  stderr : String
  deriving DecidableEq, Repr

/-- The name of the program. -/
def programName : String := "dbbroker"

/-- The version of the program. -/
def programVersion : String := "0.1.0"

/-! ## Explanations -/

/-- A text filled up with blanks. -/
def padded (width : Nat) (s : String) : String :=
  s ++ String.ofList (List.replicate (width - s.length) ' ')

/-- Two columns of text. -/
def columns (rows : List (String × String)) : String :=
  let width := (rows.map fun r => r.1.length).foldl max 0
  String.join (rows.map fun r => "  " ++ padded width r.1 ++ "  " ++ r.2 ++ "\n")

/-- A value as it is explained. -/
def OptionValue.show : OptionValue → String
  | text s => s
  | port p => portText p

/-- An option as it is explained. -/
def OptionRule.row (r : OptionRule) : String × String :=
  let metavariable := (r.name.replace "-" "_").toUpper
  let suffix :=
    match r.presence with
    | .default v => " [default: " ++ v.show ++ "]"
    | _ => ""
  ("    --" ++ r.name ++ " <" ++ metavariable ++ ">", r.help ++ suffix)

/-- The option that asks for an explanation. -/
def helpRow : String × String := ("-h, --help", "Print help")

/-- An explanation. -/
def HelpTopic.explanation : HelpTopic → String
  | program =>
    "Usage: " ++ programName ++ " <COMMAND>\n\nCommands:\n" ++
      columns (CommandName.all.map (fun c => (c.text, c.help)) ++
        [("help", "Print this message or the help of the given subcommand(s)")]) ++
      "\nOptions:\n" ++ columns [helpRow, ("-V, --version", "Print version")]
  | command c =>
    c.help ++ "\n\nUsage: " ++ programName ++ " " ++ c.text ++ " [OPTIONS]\n\nOptions:\n" ++
      columns (c.rules.map OptionRule.row ++ [helpRow])
  | help =>
    "Print this message or the help of the given subcommand(s)\n\nUsage: " ++ programName ++
      " help [COMMAND]\n"

/-! ## Commands -/

/-- The failure of everything that needs a real SSH session. -/
def withoutSsh : BrokerError :=
  .transport "dbbroker was built without ssh support"

/-- What is printed about a selection. -/
def selectionText (s : Selection) : String :=
  "fingerprint: " ++ s.fingerprint.text ++ "\nstrategy:    " ++ s.strategy.name ++ "\n"

/-- What a command prints, or why it fails. -/
def Command.perform : Command → Except BrokerError String
  | fingerprint config target => (Selection.select .builtin config target).map selectionText
  | check _ _ => .error withoutSsh
  | tunnel _ _ (some _) => .error withoutSsh
  | tunnel _ _ none => .error (.configInvalid "tunnel needs --ssh-host")

/-- What a run leaves behind that asks for this. -/
def Invocation.outcome : Invocation → Outcome
  | command c =>
    match c.perform with
    | .ok text => ⟨0, text, ""⟩
    | .error e => ⟨1, "", programName ++ " error: " ++ e.message ++ "\n"⟩
  | version => ⟨0, programName ++ " " ++ programVersion ++ "\n", ""⟩
  | help topic => ⟨0, topic.explanation, ""⟩
  | misuse e => ⟨2, "", "error: " ++ e.message ++ "\n\nFor more information, try '--help'.\n"⟩

/-- What a command line comes to. -/
def run (arguments : List String) : Outcome :=
  (Invocation.ofArguments arguments).outcome

end ConnectionBroker.CommandLine
