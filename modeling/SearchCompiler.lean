import SearchCompiler.Build.Compiler
import SearchCompiler.Document.Render
import SearchCompiler.Query.Record
import SearchCompiler.Settings.Describe
import SearchCompiler.Settings.Load
import SearchCompiler.Proofs.BuildSemantics
import SearchCompiler.Proofs.DocumentMeaning
import SearchCompiler.Proofs.RequiredTerms
import SearchCompiler.Proofs.HookProtocol
import SearchCompiler.Proofs.ModeAgreement
import SearchCompiler.Proofs.TermScanning
import SearchCompiler.Proofs.TokenGroups
import SearchCompiler.Proofs.PhraseScanning
import SearchCompiler.Proofs.QueryLanguage
import SearchCompiler.Proofs.DefaultReading
import SearchCompiler.Proofs.NegatedPhrase
import SearchCompiler.Proofs.PhraseOpacity
import SearchCompiler.Proofs.DateShapes
import SearchCompiler.Proofs.OffsetCuts
import SearchCompiler.Proofs.FaithfulRendering
import SearchCompiler.Proofs.DropReports
import SearchCompiler.Proofs.LosslessRecord
import SearchCompiler.Proofs.FittingQueries
import SearchCompiler.Proofs.BuildAccounts
import SearchCompiler.Proofs.QueryWords
import SearchCompiler.Proofs.BuildPhases
import SearchCompiler.Proofs.NegationMirror
import SearchCompiler.Proofs.TokenOrder
import SearchCompiler.Proofs.TokenMerge
import SearchCompiler.Proofs.OutputGrammar
import SearchCompiler.Proofs.LoneFields
import SearchCompiler.Proofs.TypedFields
import SearchCompiler.Proofs.QuotedValues
import SearchCompiler.Proofs.JsonGrammar
import SearchCompiler.Proofs.WrittenSettings
import SearchCompiler.Proofs.CalendarDays
import SearchCompiler.Proofs.ClockIndependence
import SearchCompiler.Proofs.SettingsSessions
import SearchCompiler.Proofs.DateInstants
import SearchCompiler.Proofs.RelativeTerms
import SearchCompiler.Proofs.EpochTerms
import SearchCompiler.Proofs.RenderedInstants
import SearchCompiler.Proofs.BoundOrder
import SearchCompiler.Proofs.RereadBounds
import SearchCompiler.Proofs.WholeRanges
import SearchCompiler.Proofs.PhraseRecovery
import SearchCompiler.Proofs.TermGrouping
import SearchCompiler.Proofs.BlankPhrases
import SearchCompiler.Proofs.EmptyDisjunctions
import SearchCompiler.Proofs.QuotedTerms
import SearchCompiler.Proofs.FormsApart
