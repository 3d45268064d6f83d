import CoverageMatrix.Config.Form
import CoverageMatrix.Job.Basic

/-!
The document form of a job.
-/
namespace CoverageMatrix

open Decode (Dialect Result)

namespace JobId

def toData (id : JobId) : Data := .text id.text

def decode (x : Fragment) : Result JobId := (Decode.text x).map JobId.mk

end JobId

namespace Job

def toData (j : Job) : Data :=
  .table [("id", j.id.toData), ("number", .int j.number), ("interpreter", .text j.interpreter),
    ("version", .text j.version), ("env", j.env.toData), ("digest", .text j.digest)]

def decode (dialect : Dialect) (x : Fragment) : Result Job := do
  let number := Decode.natural "usize"
  let r ← Decode.record dialect "struct Job" .ignored
    [.of "id" JobId.decode, .of "number" number, .of "interpreter" Decode.text,
     .of "version" Decode.text, .of "env" EnvVars.decode, .of "digest" Decode.text] x
  return {
    id := ← r.get "id" JobId.decode
    number := ← r.get "number" number
    interpreter := ← r.get "interpreter" Decode.text
    version := ← r.get "version" Decode.text
    env := ← r.get "env" EnvVars.decode
    digest := ← r.get "digest" Decode.text }

end Job
end CoverageMatrix
