import TreeSelect.CommandLine.Setting

/-!
# What a command line gives

The arguments of a command are accepted one after another.  An option takes its value after an equals
sign or from the next argument.  After `--` all arguments are operands.  What is wrong with an option
that waits for its value is found out when the next option or operand is accepted, or at the end.
-/

namespace TreeSelect.CommandLine

/-- How many operands a command takes. -/
inductive Operands
  | none
  | one
  | several
  deriving DecidableEq, Repr

/-- What a command accepts. -/
structure Accepted where
  settings : List Setting
  operands : Operands

/-- What has been accepted so far.  The last option may still wait for its value, or have a value
that has not been checked. -/
structure Given where
  settings : List (Setting × Text) := []
  waiting : Option (Setting × Option Text) := none
  operands : List Text := []
  deriving DecidableEq, Repr

namespace Given

/-- The value of a setting. -/
def value? (given : Given) (setting : Setting) : Option Text :=
  (given.settings.find? fun entry => entry.1 = setting).map Prod.snd

/-- Adds a setting, which may be given once, and whose value is checked. -/
def add (given : Given) (setting : Setting) (value : Text) : Except UsageError Given := do
  if (given.value? setting).isSome then throw .argumentConflict
  setting.checkValue value
  return { given with settings := given.settings ++ [(setting, value)] }

/-- Settles the option that waits. -/
def settle (given : Given) : Except UsageError Given :=
  let settled := { given with waiting := none }
  match given.waiting with
  | none => .ok settled
  | some (_, none) => .error .invalidValue
  | some (setting, some value) => settled.add setting value

/-- Accepts a flag. -/
def addFlag (given : Given) (setting : Setting) : Except UsageError Given := do
  let given ← given.settle
  match setting with
  | .help => throw .displayHelp
  | .version => throw .displayVersion
  | setting => given.add setting []

/-- Accepts what is written after two dashes. -/
def addLong (accepted : Accepted) (given : Given) (written : Text) : Except UsageError Given :=
  let (name, value) := match written.cut? '=' with
    | some (name, value) => (name, some value)
    | none => (written, none)
  match accepted.settings.find? fun setting => setting.long = name with
  | none => .error .unknownArgument
  | some setting =>
    if setting.takesValue then do
      let given ← given.settle
      match value with
      | some value => given.add setting value
      | none => return { given with waiting := some (setting, none) }
    else if value.isSome then .error .tooManyValues
    else given.addFlag setting

/-- Accepts the letters after one dash. -/
def addShort (accepted : Accepted) (given : Given) : Text → Except UsageError Given
  | [] => .ok given
  | letter :: letters =>
    match accepted.settings.find? fun setting => setting.short? = some letter with
    | none => .error .unknownArgument
    | some setting => do
      let given ← given.addFlag setting
      addShort accepted given letters

/-- Accepts an operand. -/
def addOperand (accepted : Accepted) (given : Given) (operand : Text) : Except UsageError Given := do
  match accepted.operands with
  | .none => throw .invalidSubcommand
  | .one => if !given.operands.isEmpty then throw .unknownArgument
  | .several => pure ()
  let given ← given.settle
  return { given with operands := given.operands ++ [operand] }

/-- Whether the last option waits for its value. -/
def waitsForValue (given : Given) : Bool :=
  match given.waiting with
  | some (_, none) => true
  | _ => false

/-- Gives the waiting option its value. -/
def addValue (given : Given) (value : Text) : Given :=
  { given with waiting := given.waiting.map fun entry => (entry.1, some value) }

/-- Accepts one argument before any `--`. -/
def addArgument (accepted : Accepted) (given : Given) (argument : Text) :
    Except UsageError Given :=
  match argument with
  | '-' :: '-' :: written => given.addLong accepted written
  | '-' :: letter :: letters => given.addShort accepted (letter :: letters)
  | argument =>
    if given.waitsForValue then .ok (given.addValue argument)
    else given.addOperand accepted argument

/-- Accepts the arguments of a command. -/
def addAll (accepted : Accepted) (given : Given) : List Text → Except UsageError Given
  | [] => given.settle
  | argument :: rest =>
    if argument = "--".toList then do
      let given ← rest.foldlM (addOperand accepted) given
      given.settle
    else do
      let given ← given.addArgument accepted argument
      addAll accepted given rest

end Given

end TreeSelect.CommandLine
