import TreeSelect.CommandLine.Given

/-!
# Commands

A command line names a command and gives it options, flags and operands:

* `compile EXPR… [--type TYPE] [--relative] [--format FORMAT]`
* `segments SELECTOR [--format FORMAT]`
* `demo EXPR [--type TYPE] [--format FORMAT]`
* `help [COMMAND]`

Before and after the command `--log-level LEVEL` may be given, and `--help` everywhere.
-/

namespace TreeSelect.CommandLine

/-- The layouts of output. -/
inductive Format
  | text
  | json
  deriving DecidableEq, Repr

/-- What a command line asks for. -/
inductive Invocation
  | compile (expressions : List Text) (type : ExpressionType) (relative : Bool) (format : Format)
  | segments (selector : Text) (format : Format)
  | demo (expression : Text) (type : ExpressionType) (format : Format)
  deriving DecidableEq, Repr

/-- The commands that have output. -/
inductive Command
  | compile
  | segments
  | demo
  deriving DecidableEq, Repr

namespace Command

/-- The command of a name. -/
def ofName? (name : Text) : Option Command :=
  if name = "compile".toList then some .compile
  else if name = "segments".toList then some .segments
  else if name = "demo".toList then some .demo
  else none

/-- What a command accepts. -/
def accepted : Command → Accepted
  | .compile => ⟨[.type, .relative, .format, .logLevel, .help], .several⟩
  | .segments => ⟨[.format, .logLevel, .help], .one⟩
  | .demo => ⟨[.type, .format, .logLevel, .help], .one⟩

/-- The type that was asked for. -/
def typeOf (given : Given) : ExpressionType :=
  match (given.value? .type).map ExpressionType.ofText with
  | some (.ok type) => type
  | _ => .css

/-- The format that was asked for. -/
def formatOf (given : Given) : Format :=
  if given.value? .format = some "json".toList then .json else .text

/-- What a command with its arguments asks for. -/
def parse (command : Command) (arguments : List Text) : Except UsageError Invocation := do
  let given ← ({} : Given).addAll command.accepted arguments
  match command, given.operands with
  | _, [] => throw .missingRequiredArgument
  | .compile, operands =>
    return .compile operands (typeOf given) (given.value? .relative).isSome (formatOf given)
  | .segments, operand :: _ => return .segments operand (formatOf given)
  | .demo, operand :: _ => return .demo operand (typeOf given) (formatOf given)

end Command

/-! ## The whole command line -/

/-- What may stand before the command. -/
def topLevel : Accepted := ⟨[.logLevel, .help, .version], .none⟩

/-- The name of the command that shows help. -/
def helpName : Text := "help".toList

/-- Whether a command has this name. -/
def namesCommand (name : Text) : Bool := name = helpName || (Command.ofName? name).isSome

/-- What the arguments after `help` ask for: help, if they name a command that there is. -/
def askHelp : List Text → UsageError
  | [] => .displayHelp
  | [name] => if namesCommand name then .displayHelp else .invalidSubcommand
  | _ => .invalidSubcommand

/-- What is missing when no command follows. -/
def withoutCommand (given : Given) : Except UsageError Invocation := do
  let given ← given.settle
  throw (if given.settings.isEmpty then .displayHelpOnMissing else .missingSubcommand)

/-- What is wrong with arguments after `--` in front of a command. -/
def afterDashes (given : Given) : List Text → Except UsageError Invocation
  | [] => withoutCommand given
  | operand :: _ => throw (if namesCommand operand then .unknownArgument else .invalidSubcommand)

/-- What a named command asks for.  Settings in front of the command are settled after its own. -/
def startCommand (given : Given) (name : Text) (arguments : List Text) :
    Except UsageError Invocation :=
  match Command.ofName? name with
  | none => throw (askHelp arguments)
  | some command => do
    let invocation ← command.parse arguments
    let _ ← given.settle
    return invocation

/-- What the arguments ask for, after some settings. -/
def parseFrom (given : Given) : List Text → Except UsageError Invocation
  | [] => withoutCommand given
  | argument :: rest =>
    if argument = "--".toList then afterDashes given rest
    else if namesCommand argument && !given.waitsForValue then startCommand given argument rest
    else do
      let given ← given.addArgument topLevel argument
      parseFrom given rest

/-- What a command line asks for. -/
def parse (arguments : List Text) : Except UsageError Invocation := parseFrom {} arguments

end TreeSelect.CommandLine
