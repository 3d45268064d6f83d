import CoverageMatrix.Main
import CoverageMatrix.Invocation.Form
import CoverageMatrix.Json.Reader
import CoverageMatrix.Matrix.Form
import CoverageMatrix.Matrix.Schedule
import CoverageMatrix.Reporting.Helper
import CoverageMatrix.Reporting.Offline
import CoverageMatrix.Scripted
import CoverageMatrix.Config.File
import CoverageMatrix.Shell.Host
import CoverageMatrix.CommandLine.Run
import CoverageMatrix.Program.Transcript
import CoverageMatrix.Proofs.Program.Transcript
import CoverageMatrix.Proofs.Job.Course
import CoverageMatrix.Proofs.Job.Theorems
import CoverageMatrix.Proofs.Job.Closing
import CoverageMatrix.Proofs.Matrix.Board
import CoverageMatrix.Proofs.Matrix.Jobs
import CoverageMatrix.Proofs.Matrix.Settling
import CoverageMatrix.Proofs.Matrix.Closing
import CoverageMatrix.Proofs.Phase.Standard
import CoverageMatrix.Proofs.Phase.Install
import CoverageMatrix.Proofs.Reporting.Helper
import CoverageMatrix.Proofs.Matrix.Theorems
import CoverageMatrix.Proofs.Matrix.Verdict
import CoverageMatrix.Proofs.Matrix.Progress
import CoverageMatrix.Proofs.Matrix.Breakdown
import CoverageMatrix.Proofs.Files.Agreement
import CoverageMatrix.Proofs.Files.Difference
import CoverageMatrix.Proofs.Program.Runs
import CoverageMatrix.Proofs.Program.Surroundings
import CoverageMatrix.Proofs.Program.Secrecy
import CoverageMatrix.Proofs.Phase.Requests
import CoverageMatrix.Proofs.Job.Coverage
import CoverageMatrix.Proofs.Job.Discretion
import CoverageMatrix.Proofs.Matrix.Isolation
import CoverageMatrix.Proofs.Matrix.Footprint
import CoverageMatrix.Proofs.Matrix.Secrecy
import CoverageMatrix.Proofs.Data.Decode
import CoverageMatrix.Proofs.Data.Bounds
import CoverageMatrix.Proofs.Toml.Strings
import CoverageMatrix.Proofs.Toml.Keys
import CoverageMatrix.Proofs.Toml.Scalars
import CoverageMatrix.Proofs.Toml.Values
import CoverageMatrix.Proofs.Toml.Lines
import CoverageMatrix.Proofs.Toml.Layout
import CoverageMatrix.Proofs.Toml.Drafts
import CoverageMatrix.Proofs.Toml.Documents
import CoverageMatrix.Proofs.Toml.Bounds
import CoverageMatrix.Proofs.Config.Form
import CoverageMatrix.Proofs.Config.Document
import CoverageMatrix.Proofs.Config.Bounds
import CoverageMatrix.Proofs.Config.Theorems
import CoverageMatrix.Proofs.Path
import CoverageMatrix.Proofs.Text.Bytes
import CoverageMatrix.Proofs.Data.Nesting
import CoverageMatrix.Proofs.Json.Strings
import CoverageMatrix.Proofs.Json.Numbers
import CoverageMatrix.Proofs.Json.Layout
import CoverageMatrix.Proofs.Json.Reading
import CoverageMatrix.Proofs.Config.Json
import CoverageMatrix.Proofs.Job.Form
import CoverageMatrix.Proofs.Job.Plan
import CoverageMatrix.Proofs.Phase.Commands
import CoverageMatrix.Proofs.Matrix.Files
import CoverageMatrix.Proofs.Matrix.Form
import CoverageMatrix.Proofs.Matrix.Digest
import CoverageMatrix.Proofs.Matrix.Plan
import CoverageMatrix.Proofs.Text.Substitute
import CoverageMatrix.Proofs.Phase.Hollow
import CoverageMatrix.Proofs.Matrix.Permits
import CoverageMatrix.Proofs.Data.Schema
import CoverageMatrix.Proofs.Config.Schema
import CoverageMatrix.Proofs.Job.Log
import CoverageMatrix.Proofs.Job.FollowUps
import CoverageMatrix.Proofs.Program.Partway
import CoverageMatrix.Proofs.Reporting.Desk
import CoverageMatrix.Proofs.Phase.Variables
import CoverageMatrix.Proofs.Job.Variables
import CoverageMatrix.Proofs.Matrix.Variables
import CoverageMatrix.Proofs.Matrix.Gate
import CoverageMatrix.Proofs.Coverage.State
import CoverageMatrix.Proofs.Matrix.Restriction
import CoverageMatrix.Proofs.Files.Copying
import CoverageMatrix.Proofs.Reporting.Copies
import CoverageMatrix.Proofs.Text.Placeholders
import CoverageMatrix.Proofs.Job.Rendering
import CoverageMatrix.Proofs.Matrix.Places
import CoverageMatrix.Proofs.CommandLine.Exit
import CoverageMatrix.Proofs.CommandLine.Identifier
