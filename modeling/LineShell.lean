import LineShell.CommandLine.Arguments
import LineShell.CommandLine.Invocation
import LineShell.CommandLine.Options
import LineShell.CommandLine.Reach
import LineShell.CommandLine.Report
import LineShell.CommandLine.Run
import LineShell.CommandLine.Script
import LineShell.Completion.Candidate
import LineShell.Completion.Context
import LineShell.Completion.Engine
import LineShell.Completion.Generator
import LineShell.Completion.Registry
import LineShell.Completion.Snapshot
import LineShell.Completion.Suggestion
import LineShell.Config.Basic
import LineShell.Config.Display
import LineShell.Config.Load
import LineShell.Config.Toml
import LineShell.Error
import LineShell.Evaluation.Command
import LineShell.Evaluation.Run
import LineShell.Files.Entry
import LineShell.Files.Error
import LineShell.Files.Path
import LineShell.Files.Rights
import LineShell.Files.Stream
import LineShell.Files.Tree
import LineShell.Interactive
import LineShell.Launch
import LineShell.Launch.Effects
import LineShell.Launch.Interpreter
import LineShell.Launch.Options
import LineShell.Machine
import LineShell.Main
import LineShell.Prompt
import LineShell.Proofs.Acceptance
import LineShell.Proofs.ByteOrder
import LineShell.Proofs.CallDepth
import LineShell.Proofs.Capacity
import LineShell.Proofs.Cover
import LineShell.Proofs.DefinedNames
import LineShell.Proofs.Descent
import LineShell.Proofs.Dispatch
import LineShell.Proofs.EffectiveSettings
import LineShell.Proofs.Effects
import LineShell.Proofs.Extension
import LineShell.Proofs.Failures
import LineShell.Proofs.FreshWord
import LineShell.Proofs.Grammar
import LineShell.Proofs.Grouping
import LineShell.Proofs.Insertion
import LineShell.Proofs.Joining
import LineShell.Proofs.LastItem
import LineShell.Proofs.Locality
import LineShell.Proofs.Lossless
import LineShell.Proofs.MaximalMunch
import LineShell.Proofs.Narrowing
import LineShell.Proofs.Offers
import LineShell.Proofs.OneContext
import LineShell.Proofs.OneOffReport
import LineShell.Proofs.OneShape
import LineShell.Proofs.Painting
import LineShell.Proofs.PartialSettings
import LineShell.Proofs.Parts
import LineShell.Proofs.Policy
import LineShell.Proofs.ProgramIndex
import LineShell.Proofs.Progress
import LineShell.Proofs.QuotedValues
import LineShell.Proofs.QuotedWords
import LineShell.Proofs.ReadOnly
import LineShell.Proofs.Reading
import LineShell.Proofs.ReservedNames
import LineShell.Proofs.Sequencing
import LineShell.Proofs.SgrGroups
import LineShell.Proofs.ShownDirectory
import LineShell.Proofs.Slices
import LineShell.Proofs.StartUp
import LineShell.Proofs.Steps
import LineShell.Proofs.StoredBodies
import LineShell.Proofs.Streaming
import LineShell.Proofs.StyleWords
import LineShell.Proofs.SuggestedPlaces
import LineShell.Proofs.Table
import LineShell.Proofs.Unambiguous
import LineShell.Proofs.Verdicts
import LineShell.Proofs.Walks
import LineShell.Proofs.Words
import LineShell.Proofs.WrittenDocuments
import LineShell.Proofs.WrittenSettings
import LineShell.Proofs.WrittenStrings
import LineShell.Proofs.WrittenTokens
import LineShell.Scope
import LineShell.Session
import LineShell.Style.Basic
import LineShell.Style.LsColors
import LineShell.Style.Sgr
import LineShell.Style.Spec
import LineShell.Syntax.Lexeme
import LineShell.Syntax.Lookup
import LineShell.Syntax.Node
import LineShell.Syntax.Primary
import LineShell.Syntax.Tree
import LineShell.Text.Alphanumeric
import LineShell.Text.Bytes
import LineShell.Text.Hidden
import LineShell.Text.Json
import LineShell.Text.NameSet
import LineShell.Text.Quoted
import LineShell.Text.Words
import LineShell.Toml.Escape
import LineShell.Toml.Reader
import LineShell.Toml.Scalar
import LineShell.Toml.Table
import LineShell.Toml.Token
import LineShell.Toml.Value
import LineShell.Toml.Writer
