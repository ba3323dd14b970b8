import TemplateLint.Braces
import TemplateLint.Calendar
import TemplateLint.CommandLine
import TemplateLint.Config
import TemplateLint.Correction
import TemplateLint.Discovery
import TemplateLint.Engine
import TemplateLint.Engine.Bench
import TemplateLint.Exclusion
import TemplateLint.FileTree
import TemplateLint.Json
import TemplateLint.Json.Printer
import TemplateLint.Json.Reader
import TemplateLint.Linter
import TemplateLint.Linter.Builtin
import TemplateLint.Linter.Described
import TemplateLint.Linter.LineSpaces
import TemplateLint.Linter.Name
import TemplateLint.Linter.Newlines
import TemplateLint.Linter.Options
import TemplateLint.Linter.TagStyle
import TemplateLint.Linter.WholeNumber
import TemplateLint.Main
import TemplateLint.Offense
import TemplateLint.Path
import TemplateLint.Proofs.Braces.Language
import TemplateLint.Proofs.Config.Defaults
import TemplateLint.Proofs.Config.Excludes
import TemplateLint.Proofs.Config.Layers
import TemplateLint.Proofs.Config.Malformed
import TemplateLint.Proofs.Config.Reading
import TemplateLint.Proofs.Config.Switches
import TemplateLint.Proofs.Correction.Change
import TemplateLint.Proofs.Correction.Lines
import TemplateLint.Proofs.Correction.Newlines
import TemplateLint.Proofs.Correction.Rewriting
import TemplateLint.Proofs.Correction.Settled
import TemplateLint.Proofs.Correction.Splice
import TemplateLint.Proofs.Discovery
import TemplateLint.Proofs.Discovery.Globs
import TemplateLint.Proofs.Discovery.Listing
import TemplateLint.Proofs.Engine.Builtin
import TemplateLint.Proofs.Engine.Convergence
import TemplateLint.Proofs.Engine.History
import TemplateLint.Proofs.Engine.Iteration
import TemplateLint.Proofs.Engine.Single
import TemplateLint.Proofs.Linter.BlankLines
import TemplateLint.Proofs.Linter.Clean
import TemplateLint.Proofs.Linter.Respacing
import TemplateLint.Proofs.Linter.Restyling
import TemplateLint.Proofs.Linter.WordEnds
import TemplateLint.Proofs.Path
import TemplateLint.Proofs.Registry
import TemplateLint.Proofs.Registry.History
import TemplateLint.Proofs.Registry.LinterNames
import TemplateLint.Proofs.Report.Json
import TemplateLint.Proofs.Report.Junit
import TemplateLint.Proofs.Report.Lines
import TemplateLint.Proofs.Selection.Greedy
import TemplateLint.Proofs.Session.Breaking
import TemplateLint.Proofs.Session.Enabling
import TemplateLint.Proofs.Session.Guarded
import TemplateLint.Proofs.Session.Linting
import TemplateLint.Proofs.Session.Rerun
import TemplateLint.Proofs.Session.StandardInput
import TemplateLint.Proofs.Session.Verdict
import TemplateLint.Proofs.Session.Writing
import TemplateLint.Proofs.Source.Escape
import TemplateLint.Proofs.Source.Positions
import TemplateLint.Proofs.Source.Rewriting
import TemplateLint.Proofs.Source.Scan
import TemplateLint.Proofs.Text.Utf8
import TemplateLint.Proofs.Value.Layering
import TemplateLint.Proofs.Value.Numbers
import TemplateLint.Registry
import TemplateLint.Registry.Module
import TemplateLint.Report
import TemplateLint.Report.Documents
import TemplateLint.Report.Format
import TemplateLint.Report.Lines
import TemplateLint.Selection
import TemplateLint.Session
import TemplateLint.Session.Outcome
import TemplateLint.Severity
import TemplateLint.Source
import TemplateLint.Source.Tag
import TemplateLint.Text
import TemplateLint.Text.Character
import TemplateLint.Text.LowerCase
import TemplateLint.Text.Quoted
import TemplateLint.Text.Seam
import TemplateLint.Text.Utf8
import TemplateLint.Toml.Document
import TemplateLint.Toml.Key
import TemplateLint.Toml.Problem
import TemplateLint.Toml.Scalar
import TemplateLint.Toml.Value
import TemplateLint.Value
import TemplateLint.Value.Binary64
import TemplateLint.Value.Merge
import TemplateLint.Value.Plain
import TemplateLint.Value.Shortest
import TemplateLint.Value.Written
import TemplateLint.Verdict
import TemplateLint.Wildcard
import TemplateLint.Xml
