import MarkupPreview.Main
import MarkupPreview.Proofs.ArgumentGrammar
import MarkupPreview.Proofs.ArgumentPatterns
import MarkupPreview.Proofs.ArgumentSpans
import MarkupPreview.Proofs.ArgumentTiling
import MarkupPreview.Proofs.BaseStyle
import MarkupPreview.Proofs.BlankSource
import MarkupPreview.Proofs.BlockCover
import MarkupPreview.Proofs.BracketBalance
import MarkupPreview.Proofs.Broadcast
import MarkupPreview.Proofs.DirectiveExtent
import MarkupPreview.Proofs.DocumentParts
import MarkupPreview.Proofs.ExactDebounce
import MarkupPreview.Proofs.FirstFault
import MarkupPreview.Proofs.IgnoredArguments
import MarkupPreview.Proofs.InlineContent
import MarkupPreview.Proofs.InlineReplay
import MarkupPreview.Proofs.InlineText
import MarkupPreview.Proofs.Interleaving
import MarkupPreview.Proofs.JsonNumerals
import MarkupPreview.Proofs.JsonReadBack
import MarkupPreview.Proofs.LineCache
import MarkupPreview.Proofs.LineGrammar
import MarkupPreview.Proofs.LineSpan
import MarkupPreview.Proofs.LosslessTokens
import MarkupPreview.Proofs.MisplacedToken
import MarkupPreview.Proofs.NeverClosed
import MarkupPreview.Proofs.NewProject
import MarkupPreview.Proofs.NumericLiterals
import MarkupPreview.Proofs.PaddedBlock
import MarkupPreview.Proofs.PaddedLine
import MarkupPreview.Proofs.Padding
import MarkupPreview.Proofs.PhaseCounters
import MarkupPreview.Proofs.ReadingDepth
import MarkupPreview.Proofs.RoleOfText
import MarkupPreview.Proofs.SettledPreview
import MarkupPreview.Proofs.SinglePass
import MarkupPreview.Proofs.StyleFold
import MarkupPreview.Proofs.TextRuns
import MarkupPreview.Proofs.TrailingSpace
import MarkupPreview.Proofs.UnclosedDirective
import MarkupPreview.Proofs.VisibleText
