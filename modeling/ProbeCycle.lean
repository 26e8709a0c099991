import ProbeCycle.Catalog.Json
import ProbeCycle.CommandLine.Run
import ProbeCycle.Config.File
import ProbeCycle.Config.Layer
import ProbeCycle.Line
import ProbeCycle.Main
import ProbeCycle.Modifiers.Json
import ProbeCycle.Proofs.Catalog
import ProbeCycle.Proofs.Steps
import ProbeCycle.Toml.Writer
import ProbeCycle.Workplace
import ProbeCycle.Proofs.Draft
import ProbeCycle.Proofs.Snapshot
import ProbeCycle.Proofs.Line
import ProbeCycle.Proofs.StoredDefaults
import ProbeCycle.Proofs.Modifiers
import ProbeCycle.Proofs.CommandLine.Plan
import ProbeCycle.Proofs.CommandLine.Agreement
import ProbeCycle.Proofs.CommandLine.Limits
import ProbeCycle.Proofs.Conditions
import ProbeCycle.Proofs.Work
import ProbeCycle.Proofs.Change
import ProbeCycle.Proofs.History
import ProbeCycle.Proofs.Numeral
import ProbeCycle.Proofs.Offsets
import ProbeCycle.Proofs.Rounding
import ProbeCycle.Proofs.LineText
import ProbeCycle.Proofs.CommandLine.LineText
import ProbeCycle.Proofs.Content
import ProbeCycle.Proofs.Setting.Json
import ProbeCycle.Proofs.Config.Json
import ProbeCycle.Proofs.Config.Toml
import ProbeCycle.Proofs.Config.SetDefault
import ProbeCycle.Proofs.LastWrite
import ProbeCycle.Proofs.Modifiers.Letters
import ProbeCycle.Proofs.Warnings
import ProbeCycle.Proofs.Modifiers.Joined
import ProbeCycle.Proofs.Text.Case
import ProbeCycle.Proofs.Json.Finite
import ProbeCycle.Proofs.Setting.Input
import ProbeCycle.Proofs.Setting.Written
import ProbeCycle.Proofs.Limits.Exact
import ProbeCycle.Proofs.Config.InPlace
import ProbeCycle.Proofs.Layering
import ProbeCycle.Proofs.Json.Literal
import ProbeCycle.Proofs.Setting.Literal
import ProbeCycle.Proofs.Storable
import ProbeCycle.Proofs.Shortest
import ProbeCycle.Proofs.Canonical
