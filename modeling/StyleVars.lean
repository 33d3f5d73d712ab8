import StyleVars.Command.Arguments
import StyleVars.Command.Help
import StyleVars.Command.Needs
import StyleVars.Command.Run
import StyleVars.Compile.Function
import StyleVars.Compile.Importer
import StyleVars.Compile.Job
import StyleVars.Compile.LineCompiler
import StyleVars.Compile.Pass
import StyleVars.Compile.Record
import StyleVars.Compile.Work
import StyleVars.Data.Basic
import StyleVars.Data.Document
import StyleVars.Data.Json
import StyleVars.Data.JsonReader
import StyleVars.Data.Key
import StyleVars.Data.Levels
import StyleVars.Data.Shown
import StyleVars.Disk
import StyleVars.Extract.Inline
import StyleVars.Extract.Instrument
import StyleVars.Extract.Preparation
import StyleVars.Extract.Run
import StyleVars.Extract.Sources
import StyleVars.Extract.Variables
import StyleVars.Failure
import StyleVars.Journal
import StyleVars.Keyed
import StyleVars.LogSession
import StyleVars.LogSetup
import StyleVars.Main
import StyleVars.Numeric.Binary64
import StyleVars.Numeric.Number
import StyleVars.Numeric.Reader
import StyleVars.Numeric.Rounding
import StyleVars.Numeric.Shortest
import StyleVars.Path.Basic
import StyleVars.Path.Lookup
import StyleVars.Path.Place
import StyleVars.Path.Spelling
import StyleVars.Plugin.Basic
import StyleVars.Plugin.Builtin
import StyleVars.Plugin.Filter
import StyleVars.Plugin.Installed
import StyleVars.Plugin.Registry
import StyleVars.Service.Framework
import StyleVars.Service.Plain.Bodies
import StyleVars.Service.Plain.Documents
import StyleVars.Service.Plain.Framework
import StyleVars.Service.Respond
import StyleVars.Settings
import StyleVars.Settings.Notation
import StyleVars.Sheet.Declaration
import StyleVars.Sheet.Import
import StyleVars.Sheet.Position
import StyleVars.Sheet.Statement
import StyleVars.Text.Basic
import StyleVars.Text.Blank
import StyleVars.Text.CodePoint
import StyleVars.Text.Digit
import StyleVars.Text.LowerCase
import StyleVars.Text.Printable
import StyleVars.Text.Quoted
import StyleVars.Text.Surrogate
import StyleVars.Text.Utf8
import StyleVars.Text.Word
import StyleVars.Text.WordRanges
import StyleVars.Value.Color
import StyleVars.Value.Flat
import StyleVars.Value.Native
import StyleVars.Value.Structured
import StyleVars.Proofs.Addresses
import StyleVars.Proofs.AgreeingForms
import StyleVars.Proofs.BarePayloads
import StyleVars.Proofs.CapturedValues
import StyleVars.Proofs.CollidingKeys
import StyleVars.Proofs.ColorChannels
import StyleVars.Proofs.CommentedDeclarations
import StyleVars.Proofs.CompilerRuns
import StyleVars.Proofs.DeclarationTexts
import StyleVars.Proofs.FilteredPayloads
import StyleVars.Proofs.FirstStatements
import StyleVars.Proofs.FlatPayload
import StyleVars.Proofs.FlatReader
import StyleVars.Proofs.FunctionTables
import StyleVars.Proofs.HookNames
import StyleVars.Proofs.ImportCycles
import StyleVars.Proofs.ImportLookups
import StyleVars.Proofs.ImportTree
import StyleVars.Proofs.IncludedFiles
import StyleVars.Proofs.InlinedLines
import StyleVars.Proofs.InstrumentedSheet
import StyleVars.Proofs.InterpolatedStrings
import StyleVars.Proofs.JoinedTargets
import StyleVars.Proofs.JsonPayloads
import StyleVars.Proofs.JsonTexts
import StyleVars.Proofs.KeyedLists
import StyleVars.Proofs.LeftImports
import StyleVars.Proofs.LoadedFiles
import StyleVars.Proofs.MapSeams
import StyleVars.Proofs.MergedVariables
import StyleVars.Proofs.NestedCode
import StyleVars.Proofs.Outcomes
import StyleVars.Proofs.PathSpellings
import StyleVars.Proofs.PathTexts
import StyleVars.Proofs.PayloadSites
import StyleVars.Proofs.Provenance
import StyleVars.Proofs.ReaderNesting
import StyleVars.Proofs.ReaderSteps
import StyleVars.Proofs.RebuiltImports
import StyleVars.Proofs.RefusedValues
import StyleVars.Proofs.RoundedNumbers
import StyleVars.Proofs.SerializedTags
import StyleVars.Proofs.ServiceAnswers
import StyleVars.Proofs.SheetNames
import StyleVars.Proofs.SheetTree
import StyleVars.Proofs.SplicedText
import StyleVars.Proofs.StatementTexts
import StyleVars.Proofs.StrippedTexts
import StyleVars.Proofs.TargetPieces
import StyleVars.Proofs.WaitingPlugins
import StyleVars.Proofs.WrittenParts
import StyleVars.Proofs.WrittenStatements
import StyleVars.Proofs.ReaderRounds
import StyleVars.Proofs.DeclarationPositions
import StyleVars.Proofs.NormalForms
import StyleVars.Proofs.KnownSpellings
import StyleVars.Proofs.StatementBoundaries
