import TreeSelect.CommandLine.Command
import TreeSelect.CommandLine.Compile
import TreeSelect.CommandLine.Demo
import TreeSelect.CommandLine.Segments

/-!
# Running a command line

A command line gives a text to print, or an error.
-/

namespace TreeSelect.CommandLine

/-- Why a command line has no output. -/
inductive Failure
  | usage (error : UsageError)
  | document (error : DocumentError)
  deriving DecidableEq, Repr

/-- The wording of a failure. -/
def Failure.text : Failure → Text
  | .usage error => error.text
  | .document (.selector error) => error.message
  | .document (.query (.unreadable offset)) =>
    "xpath parse error at byte ".toList ++ Nat.toDigits 10 offset
  | .document (.query (.evaluation error)) => error.message

/-- The exit code of a failure. -/
def Failure.exitCode : Failure → UInt32
  | .usage _ => 2
  | .document _ => 1

/-- Lines as a text; blank characters at its end are left out. -/
def joinLines (lines : List Text) : Text :=
  Text.trimEnd (lines.flatMap fun line => line ++ ['\n'])

/-- Output in the format asked for. -/
def layOut (format : Format) (lines : List Text) (json : Json) : Text :=
  match format with
  | .text => joinLines lines
  | .json => json.text

/-- The output of a command. -/
def execute : Invocation → Except DocumentError Text
  | .compile expressions type relative format => do
    let report ← (compileAll expressions type relative).mapError .selector
    return layOut format report.lines report.json
  | .segments selector format => do
    let segments ← (Segment.chain selector).mapError .selector
    return layOut format (segments.flatMap segmentLines) (.array (segments.map segmentJson))
  | .demo expression type format => do
    let report ← queryPage expression type
    return layOut format report.lines report.json

/-- The output of a command line. -/
def run (arguments : List Text) : Except Failure Text := do
  let invocation ← (parse arguments).mapError .usage
  (execute invocation).mapError .document

end TreeSelect.CommandLine
