import CodeSurvey.CommandLine.Options
import CodeSurvey.CommandLine.Run
import CodeSurvey.Distinct
import CodeSurvey.Entity.Basic
import CodeSurvey.Entity.Encode
import CodeSurvey.Environment.Usage
import CodeSurvey.Environment.Variables
import CodeSurvey.Extract.Callable
import CodeSurvey.Extract.Classes
import CodeSurvey.Extract.Components
import CodeSurvey.Extract.Functions
import CodeSurvey.Extract.Kind
import CodeSurvey.Extract.Layers
import CodeSurvey.Extract.Models
import CodeSurvey.Extract.Results
import CodeSurvey.Extract.RoutePath
import CodeSurvey.Extract.Routes
import CodeSurvey.Extract.Span
import CodeSurvey.Extract.Types
import CodeSurvey.Extract.View
import CodeSurvey.Files.Classify
import CodeSurvey.Files.Path
import CodeSurvey.Files.Selection
import CodeSurvey.Files.Tree
import CodeSurvey.Format.Decimal
import CodeSurvey.Format.Digits
import CodeSurvey.Format.Fault
import CodeSurvey.Format.Json.Printer
import CodeSurvey.Format.Json.Reader
import CodeSurvey.Format.Number
import CodeSurvey.Format.Quoted
import CodeSurvey.Format.Toml.Reader
import CodeSurvey.Format.Toml.Scalar
import CodeSurvey.Format.Toml.Table
import CodeSurvey.Format.Value
import CodeSurvey.Format.WholeNumber
import CodeSurvey.Format.Yaml.Cursor
import CodeSurvey.Format.Yaml.Node
import CodeSurvey.Format.Yaml.Reader
import CodeSurvey.Format.Yaml.Resolve
import CodeSurvey.Format.Yaml.Scalar
import CodeSurvey.Format.Yaml.Token
import CodeSurvey.Main
import CodeSurvey.Manifest.ConfigFile
import CodeSurvey.Manifest.Dependency
import CodeSurvey.Metrics.Architecture
import CodeSurvey.Metrics.Complexity
import CodeSurvey.Metrics.Nesting
import CodeSurvey.Metrics.Quality
import CodeSurvey.Metrics.Statistics
import CodeSurvey.Pattern.Basic
import CodeSurvey.Pattern.Matching
import CodeSurvey.Pattern.Reader
import CodeSurvey.Proofs.AddedLine
import CodeSurvey.Proofs.Aggregates
import CodeSurvey.Proofs.Assembly
import CodeSurvey.Proofs.Attempts
import CodeSurvey.Proofs.Balance
import CodeSurvey.Proofs.SharedSections
import CodeSurvey.Proofs.CodeLimits
import CodeSurvey.Proofs.Comments
import CodeSurvey.Proofs.Concatenation
import CodeSurvey.Proofs.Detection
import CodeSurvey.Proofs.EntityPaths
import CodeSurvey.Proofs.FileOrder
import CodeSurvey.Proofs.Findings
import CodeSurvey.Proofs.Candidates
import CodeSurvey.Proofs.FunctionExtents
import CodeSurvey.Proofs.Isolation
import CodeSurvey.Proofs.KeptResults
import CodeSurvey.Proofs.LineFeeds
import CodeSurvey.Proofs.LineNumbers
import CodeSurvey.Proofs.LineSpans
import CodeSurvey.Proofs.LineViews
import CodeSurvey.Proofs.Matches
import CodeSurvey.Proofs.Matching
import CodeSurvey.Proofs.PlainDeclaration
import CodeSurvey.Proofs.PlainFile
import CodeSurvey.Proofs.PlainReading
import CodeSurvey.Proofs.Reading
import CodeSurvey.Proofs.Recoding
import CodeSurvey.Proofs.Relocation
import CodeSurvey.Proofs.ReportAccounts
import CodeSurvey.Proofs.Requests
import CodeSurvey.Proofs.RouteProtection
import CodeSurvey.Proofs.Scans
import CodeSurvey.Proofs.Spans
import CodeSurvey.Proofs.StableSort
import CodeSurvey.Proofs.VariableTables
import CodeSurvey.Report.Markdown
import CodeSurvey.Report.Overview
import CodeSurvey.Report.Security
import CodeSurvey.Report.Template
import CodeSurvey.Security.Auth
import CodeSurvey.Security.Report
import CodeSurvey.Security.Rule
import CodeSurvey.Security.Rules
import CodeSurvey.Security.Scanner
import CodeSurvey.Security.Severity
import CodeSurvey.Security.Surroundings
import CodeSurvey.Settings.Basic
import CodeSurvey.Settings.Defaults
import CodeSurvey.Settings.Document
import CodeSurvey.Settings.Starter
import CodeSurvey.Source.Bracket
import CodeSurvey.Source.Name
import CodeSurvey.Source.Signature
import CodeSurvey.Source.TopLevel
import CodeSurvey.Source.TypeText
import CodeSurvey.Survey.Analysis
import CodeSurvey.Survey.Callers
import CodeSurvey.Survey.FileSurvey
import CodeSurvey.Survey.Surveyor
import CodeSurvey.Text.Basic
import CodeSurvey.Text.CaseTable
import CodeSurvey.Text.CharClass
import CodeSurvey.Text.Cut
import CodeSurvey.Text.LetterTable
import CodeSurvey.Text.Lines
import CodeSurvey.Text.Names
import CodeSurvey.Text.PrintTable
import CodeSurvey.Text.Utf8
import CodeSurvey.Proofs.Braces
import CodeSurvey.Proofs.MethodExtents
import CodeSurvey.Proofs.ExportLines
import CodeSurvey.Proofs.Headers
import CodeSurvey.Proofs.ExportedFunctions
import CodeSurvey.Proofs.Counts
import CodeSurvey.Proofs.DecisionPoints
import CodeSurvey.Proofs.DisabledRules
import CodeSurvey.Proofs.WiderWindows
import CodeSurvey.Proofs.GreedySpans
import CodeSurvey.Proofs.SmallestBlock
import CodeSurvey.Proofs.UtilityFunctions
import CodeSurvey.Proofs.CodePlaces
import CodeSurvey.Proofs.BracketBounds
import CodeSurvey.Proofs.Pieces
import CodeSurvey.Proofs.Splitting
import CodeSurvey.Proofs.TopLevelSearch
import CodeSurvey.Proofs.Modifiers
import CodeSurvey.Proofs.Squeezing
import CodeSurvey.Proofs.Phrases
import CodeSurvey.Proofs.ParameterLists
import CodeSurvey.Proofs.MemberLists
import CodeSurvey.Proofs.ReturnTypes
import CodeSurvey.Proofs.MethodStarts
import CodeSurvey.Proofs.LiteralUnions
import CodeSurvey.Proofs.AssignedExpressions
import CodeSurvey.Proofs.CallArguments
import CodeSurvey.Proofs.RouterCalls
import CodeSurvey.Proofs.Sections
import CodeSurvey.Proofs.SchemaModels
import CodeSurvey.Proofs.EntityTables
import CodeSurvey.Proofs.EntityRelations
import CodeSurvey.Proofs.PropBindings
import CodeSurvey.Proofs.PrintedInterfaces
import CodeSurvey.Proofs.ComponentProps
import CodeSurvey.Proofs.Replacements
import CodeSurvey.Proofs.RouteSegments
import CodeSurvey.Proofs.AppRouterPaths
import CodeSurvey.Proofs.LocalFindings
import CodeSurvey.Proofs.FirstElements
import CodeSurvey.Proofs.RootManifests
import CodeSurvey.Proofs.DeclaredNames
import CodeSurvey.Proofs.DeclarationsKept
import CodeSurvey.Proofs.ScanBounds
import CodeSurvey.Proofs.MergedSettings
import CodeSurvey.Proofs.Wildcards
import CodeSurvey.Proofs.TreeWalks
