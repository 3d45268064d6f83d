import CoverageMatrix.Config.Form
import CoverageMatrix.Invocation

/-!
The document forms of commands and of what they leave behind.
-/
namespace CoverageMatrix

open Decode (Dialect Result)

namespace Invocation

def toData (i : Invocation) : Data :=
  .table [("label", .text i.label), ("program", .text i.program), ("args", .texts i.args),
    ("env", i.env.toData), ("cwd", i.cwd.toData), ("timeout_secs", .int i.timeoutSecs)]

def decode (dialect : Dialect) (x : Fragment) : Result Invocation := do
  let args := Decode.listOf Decode.text
  let timeout := Decode.natural "u64"
  let r ← Decode.record dialect "struct Invocation" .ignored
    [.of "label" Decode.text, .of "program" Decode.text, .of "args" args, .of "env" EnvVars.decode,
     .of "cwd" Path.decode, .of "timeout_secs" timeout] x
  return {
    label := ← r.get "label" Decode.text
    program := ← r.get "program" Decode.text
    args := ← r.get "args" args
    env := ← r.get "env" EnvVars.decode
    cwd := ← r.get "cwd" Path.decode
    timeoutSecs := ← r.get "timeout_secs" timeout }

end Invocation

namespace CommandOutput

def toData (o : CommandOutput) : Data :=
  .table [("exit_code", .int o.exitCode), ("stdout", .text o.stdout), ("stderr", .text o.stderr),
    ("duration_ms", .int o.durationMs)]

/-- Reads what a command left behind. -/
def decode (dialect : Dialect) (x : Fragment) : Result CommandOutput := do
  let duration := Decode.natural "u64"
  let r ← Decode.record dialect "struct CommandOutput" .ignored
    [.of "exit_code" Decode.code, .of "stdout" Decode.text, .of "stderr" Decode.text,
     .of "duration_ms" duration] x
  return {
    exitCode := ← r.get "exit_code" Decode.code
    stdout := ← r.get "stdout" Decode.text
    stderr := ← r.get "stderr" Decode.text
    durationMs := ← r.get "duration_ms" duration }

end CommandOutput
end CoverageMatrix
