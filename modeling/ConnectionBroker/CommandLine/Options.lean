import ConnectionBroker.Config.Connection

/-!
# Options

The options of a command line are named: `--name value` or `--name=value`. `OptionRule` says what
one option takes and what it is when it is not given, and `Options.read` reads the arguments of a
command by such rules, from left to right; the first argument that does not fit ends the reading.

A value that stands by itself must not look like an option, and every option is given at most
once. A command takes nothing but options, so two dashes end the arguments.
-/

namespace ConnectionBroker.CommandLine

/-- What an argument looks like. -/
inductive Argument where
  /-- Two dashes. -/
  | terminator
  | long (name : String) (value : Option String)
  | short (flag : Char)
  | plain (text : String)
  deriving DecidableEq, Repr

/-- What an argument looks like. One dash alone is plain. -/
def Argument.ofText (text : String) : Argument :=
  match text.toList with
  | ['-', '-'] => .terminator
  | '-' :: '-' :: rest =>
    let name := String.ofList (rest.takeWhile (· != '='))
    match rest.dropWhile (· != '=') with
    | _ :: value => .long name (some (String.ofList value))
    | [] => .long name none
  | '-' :: flag :: _ => .short flag
  | _ => .plain text

/-- The value of an option. -/
inductive OptionValue where
  | text (s : String)
  | port (p : UInt16)
  deriving DecidableEq, Repr

/-- The kinds of value. -/
inductive OptionKind where
  | text
  | port
  deriving DecidableEq, Repr

/-- What an option is when it is not given. -/
inductive Presence where
  | required
  | optional
  | default (v : OptionValue)
  deriving DecidableEq, Repr

/-- What one option takes. -/
structure OptionRule where
  name : String
  kind : OptionKind
  presence : Presence
  /-- What it is for. -/
  help : String
  deriving DecidableEq, Repr

/-- Why a command line is refused. -/
inductive UsageError where
  | noCommand
  | unknownCommand (name : String)
  | unexpected (argument : String)
  | valueMissing (name : String)
  | valueUnexpected (name : String)
  | valueInvalid (name value : String)
  | repeated (name : String)
  | requiredMissing (name : String)
  deriving DecidableEq, Repr

/-- The wording of a refusal. -/
def UsageError.message : UsageError → String
  | noCommand => "a command is required"
  | unknownCommand name => "there is no command '" ++ name ++ "'"
  | unexpected argument => "unexpected argument '" ++ argument ++ "'"
  | valueMissing name => "a value is required for '--" ++ name ++ "'"
  | valueUnexpected name => "'--" ++ name ++ "' takes no value"
  | valueInvalid name value => "'--" ++ name ++ "' cannot be '" ++ value ++ "'"
  | repeated name => "'--" ++ name ++ "' can be given only once"
  | requiredMissing name => "'--" ++ name ++ "' is required"

/-- Why reading stopped before the end. -/
inductive Stop where
  | help
  | misuse (e : UsageError)
  deriving DecidableEq, Repr

/-- The number that some decimal digits stand for. -/
def decimal? (digits : List Char) : Option Nat :=
  if digits.isEmpty || !digits.all Char.isDigit then none
  else some (digits.foldl (fun n d => 10 * n + (d.toNat - '0'.toNat)) 0)

/-- The port that a text stands for; it may have a sign. -/
def portOfText? (s : String) : Option UInt16 :=
  let inRange (n : Nat) : Option UInt16 := if n < 65536 then some n.toUInt16 else none
  match s.toList with
  | '+' :: digits => (decimal? digits).bind inRange
  | '-' :: digits => (decimal? digits).bind fun n => if n = 0 then some 0 else none
  | digits => (decimal? digits).bind inRange

/-- The value that a text stands for. -/
def OptionKind.value? : OptionKind → String → Option OptionValue
  | text, s => some (.text s)
  | port, s => (portOfText? s).map .port

/-- The values of some options, by name. -/
abbrev Options := List (String × OptionValue)

namespace Options

/-- The text of an option. -/
def text? (o : Options) (name : String) : Option String :=
  match o.lookup name with
  | some (.text s) => some s
  | _ => none

/-- The text of an option, or the empty text. -/
def text (o : Options) (name : String) : String :=
  (o.text? name).getD ""

/-- The port of an option, or zero. -/
def port (o : Options) (name : String) : UInt16 :=
  match o.lookup name with
  | some (.port p) => p
  | _ => 0

/-- Takes a value for an option. -/
def give (rules : List OptionRule) (given : Options) (name value : String) :
    Except UsageError Options :=
  match rules.find? (·.name == name) with
  | none => .error (.unexpected ("--" ++ name))
  | some rule =>
    match rule.kind.value? value with
    | none => .error (.valueInvalid name value)
    | some v =>
      if given.any (·.1 == name) then .error (.repeated name) else .ok (given ++ [(name, v)])

/-- Goes on after an option was taken, or stops there. -/
def andThen (taken : Except UsageError Options) (rest : Options → Except Stop Options) :
    Except Stop Options :=
  match taken with
  | .ok given => rest given
  | .error e => .error (.misuse e)

/-- Reads arguments after some options were given. -/
def readFrom (rules : List OptionRule) (given : Options) : List String → Except Stop Options
  | [] => .ok given
  | argument :: rest =>
    match Argument.ofText argument with
    | .terminator =>
      match rest with
      | [] => .ok given
      | surplus :: _ => .error (.misuse (.unexpected surplus))
    | .long "help" none => .error .help
    | .long "help" (some _) => .error (.misuse (.valueUnexpected "help"))
    | .long name (some value) =>
      andThen (give rules given name value) fun given => readFrom rules given rest
    | .long name none =>
      if rules.all (·.name != name) then .error (.misuse (.unexpected argument))
      else
        match rest with
        | [] => .error (.misuse (.valueMissing name))
        | value :: rest =>
          match Argument.ofText value with
          | .plain value =>
            andThen (give rules given name value) fun given => readFrom rules given rest
          | _ => .error (.misuse (.valueMissing name))
    | .short flag =>
      if flag = 'h' then .error .help else .error (.misuse (.unexpected argument))
    | .plain text => .error (.misuse (.unexpected text))

/-- Adds what is not given, if it has a default or may be missing. -/
def complete (given : Options) : List OptionRule → Except UsageError Options
  | [] => .ok given
  | rule :: rest =>
    if given.any (·.1 == rule.name) then complete given rest
    else
      match rule.presence with
      | .required => .error (.requiredMissing rule.name)
      | .optional => complete given rest
      | .default v => complete (given ++ [(rule.name, v)]) rest

/-- Reads the arguments of a command by its rules. -/
def read (rules : List OptionRule) (arguments : List String) : Except Stop Options :=
  match readFrom rules [] arguments with
  | .ok given => (given.complete rules).mapError .misuse
  | .error stop => .error stop

end Options

end ConnectionBroker.CommandLine
