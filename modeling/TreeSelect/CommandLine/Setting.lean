import TreeSelect.Compiler.Basic

/-!
# Options and flags

The settings that a command line can hold, their names and their values, and what can be wrong with a
command line.
-/

namespace TreeSelect.CommandLine

/-! ## Usage errors -/

/-- Why a command line asks for no command. -/
inductive UsageError
  | unknownArgument
  | missingRequiredArgument
  | invalidSubcommand
  | missingSubcommand
  | invalidValue
  | valueValidation
  | tooManyValues
  | argumentConflict
  | displayHelp
  | displayVersion
  | displayHelpOnMissing
  deriving DecidableEq, Repr

/-- The name of a usage error. -/
def UsageError.text : UsageError → Text
  | .unknownArgument => "UnknownArgument".toList
  | .missingRequiredArgument => "MissingRequiredArgument".toList
  | .invalidSubcommand => "InvalidSubcommand".toList
  | .missingSubcommand => "MissingSubcommand".toList
  | .invalidValue => "InvalidValue".toList
  | .valueValidation => "ValueValidation".toList
  | .tooManyValues => "TooManyValues".toList
  | .argumentConflict => "ArgumentConflict".toList
  | .displayHelp => "DisplayHelp".toList
  | .displayVersion => "DisplayVersion".toList
  | .displayHelpOnMissing => "DisplayHelpOnMissingArgumentOrSubcommand".toList

/-! ## Settings -/

/-- Options and flags. -/
inductive Setting
  | logLevel
  | type
  | format
  | relative
  | help
  | version
  deriving DecidableEq, Repr

namespace Setting

/-- The name of a setting after two dashes. -/
def long : Setting → Text
  | .logLevel => "log-level".toList
  | .type => "type".toList
  | .format => "format".toList
  | .relative => "relative".toList
  | .help => "help".toList
  | .version => "version".toList

/-- The letter of a setting after one dash. -/
def short? : Setting → Option Char
  | .help => some 'h'
  | .version => some 'V'
  | _ => none

/-- Whether a setting has a value. -/
def takesValue : Setting → Bool
  | .logLevel | .type | .format => true
  | .relative | .help | .version => false

/-- Whether a value is one that a setting can have. -/
def checkValue (setting : Setting) (value : Text) : Except UsageError Unit :=
  match setting with
  | .logLevel =>
    if ["error", "warn", "info", "debug", "trace"].any (·.toList = value) then .ok ()
    else .error .invalidValue
  | .format => if ["text", "json"].any (·.toList = value) then .ok () else .error .invalidValue
  | .type =>
    match ExpressionType.ofText value with
    | .ok _ => .ok ()
    | .error _ => .error .valueValidation
  | _ => .ok ()

end Setting

end TreeSelect.CommandLine
