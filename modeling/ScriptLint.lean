import ScriptLint.Settings
import ScriptLint.Analysis
import ScriptLint.Report
import ScriptLint.CommandLine.Parser
import ScriptLint.Command
import ScriptLint.Main
import ScriptLint.Proofs.Text.Lines
import ScriptLint.Proofs.Text.Margins
import ScriptLint.Proofs.Text.Order
import ScriptLint.Proofs.Text.Pattern
import ScriptLint.Proofs.Text.Replacement
import ScriptLint.Proofs.Text.Spelling
import ScriptLint.Proofs.Json.Literals
import ScriptLint.Proofs.Json.RoundTrip
import ScriptLint.Proofs.Json.Compact
import ScriptLint.Proofs.Json.Grammar
import ScriptLint.Proofs.Toml.Literals
import ScriptLint.Proofs.Toml.Values
import ScriptLint.Proofs.Toml.Assignments
import ScriptLint.Proofs.Rule.Declaration
import ScriptLint.Proofs.Rule.LineTests
import ScriptLint.Proofs.Rule.Recognition
import ScriptLint.Proofs.Rule.Correspondence
import ScriptLint.Proofs.Rule.Run
import ScriptLint.Proofs.Rule.Simulation
import ScriptLint.Proofs.Rule.SubscriptionCalls
import ScriptLint.Proofs.Rule.Surroundings
import ScriptLint.Proofs.LayoutInvariance
import ScriptLint.Proofs.FunctionLocality
import ScriptLint.Proofs.BlankLines
import ScriptLint.Proofs.DisabledRules
import ScriptLint.Proofs.ExcludePatterns
import ScriptLint.Proofs.FileSelection
import ScriptLint.Proofs.WellFormedFindings
import ScriptLint.Proofs.LoopBodies
import ScriptLint.Proofs.OpenLoops
import ScriptLint.Proofs.NodeLookups
import ScriptLint.Proofs.MixedIndentation
import ScriptLint.Proofs.DanglingSubscriptions
import ScriptLint.Proofs.RiskyLines
import ScriptLint.Proofs.HardcodedPasswords
import ScriptLint.Proofs.UndocumentedDeclarations
import ScriptLint.Proofs.FunctionDeclarations
import ScriptLint.Proofs.ParallelAnalysis
import ScriptLint.Proofs.PathOrder
import ScriptLint.Proofs.FileSystem.Tree
import ScriptLint.Proofs.FileSystem.Writing
import ScriptLint.Proofs.DirectoryWalk
import ScriptLint.Proofs.SettingsRoundTrip
import ScriptLint.Proofs.SettingsFormats
import ScriptLint.Proofs.SettingsObjects
import ScriptLint.Proofs.CommandOutcomes
import ScriptLint.Proofs.CreatedSettings
import ScriptLint.Proofs.RelaxedSettings
import ScriptLint.Proofs.Annotations
import ScriptLint.Proofs.Tallies
import ScriptLint.Proofs.PrintedFigures
import ScriptLint.Proofs.GroupedReport
import ScriptLint.Proofs.ColoredText
import ScriptLint.Proofs.ReportReadBack
import ScriptLint.Proofs.IgnoredFiles
import ScriptLint.Proofs.ShownSettings
import ScriptLint.Proofs.Presentation
import ScriptLint.Proofs.CommandLine.OptionUses
import ScriptLint.Proofs.CommandLine.RoundTrip
