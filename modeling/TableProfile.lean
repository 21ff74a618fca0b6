import TableProfile.Main
import TableProfile.Server.Handler
import TableProfile.Settings.Json
import TableProfile.Proofs.Independence
import TableProfile.Proofs.DefinedPairs
import TableProfile.Proofs.HiddenTexts
import TableProfile.Proofs.UploadReading
import TableProfile.Proofs.Isolation
import TableProfile.Proofs.ReplySections
import TableProfile.Proofs.Accounting
import TableProfile.Proofs.Selection
import TableProfile.Proofs.Rounding
import TableProfile.Proofs.DoubleValues
import TableProfile.Proofs.DoubleArithmetic
import TableProfile.Proofs.NumberRounding
import TableProfile.Proofs.DoubleLimits
import TableProfile.Proofs.MedianOrder
import TableProfile.Proofs.DoubleBounds
import TableProfile.Proofs.DoubleSums
import TableProfile.Proofs.CorrelationDefined
import TableProfile.Proofs.CommandReport
import TableProfile.Proofs.CompletionCalls
import TableProfile.Proofs.ReplyFallback
import TableProfile.Proofs.PresentFigures
import TableProfile.Proofs.ReportPrompt
import TableProfile.Proofs.CorrelationListing
import TableProfile.Proofs.PageResults
import TableProfile.Proofs.FileContents
import TableProfile.Proofs.InferenceWindow
import TableProfile.Proofs.BatchBlocks
import TableProfile.Proofs.SettingLayers
import TableProfile.Proofs.DecimalNumerals
import TableProfile.Proofs.VariableGrammar
import TableProfile.Proofs.VariableTexts
import TableProfile.Proofs.Credentials
import TableProfile.Proofs.Utf8Texts
import TableProfile.Proofs.NumeralRounding
import TableProfile.Proofs.StrictCells
import TableProfile.Proofs.StrictLoading
import TableProfile.Proofs.OrderStatistics
import TableProfile.Proofs.FrequencyRanking
import TableProfile.Proofs.TextLines
import TableProfile.Proofs.HeadingWords
import TableProfile.Proofs.WrittenReply
import TableProfile.Proofs.ReplyLayout
import TableProfile.Proofs.SectionTexts
import TableProfile.Proofs.CompleteRows
import TableProfile.Proofs.DoubleEquality
import TableProfile.Proofs.IntegerExtremes
import TableProfile.Proofs.RowOrder
import TableProfile.Proofs.HeadingGrammar
import TableProfile.Proofs.CalendarTexts
import TableProfile.Proofs.DistinctCells
import TableProfile.Proofs.ZeroDeviation
import TableProfile.Proofs.AnswerClasses
import TableProfile.Proofs.GroupedCounts
import TableProfile.Proofs.EscapedTexts
import TableProfile.Proofs.DoubleIntervals
import TableProfile.Proofs.ShortestDigits
import TableProfile.Proofs.JsonNumbers
import TableProfile.Proofs.JsonReading
import TableProfile.Proofs.PrintedResults
