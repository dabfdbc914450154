import SuiteScore.Main
import SuiteScore.Proofs.CommandLine.ExitCode
import SuiteScore.Proofs.Feature.AsteriskSteps
import SuiteScore.Proofs.Feature.CommentedSteps
import SuiteScore.Proofs.Feature.Examples
import SuiteScore.Proofs.Feature.LiveSteps
import SuiteScore.Proofs.Feature.LineEnds
import SuiteScore.Proofs.Feature.Marks
import SuiteScore.Proofs.Feature.Names
import SuiteScore.Proofs.Feature.Opacity
import SuiteScore.Proofs.Feature.OutOfOrder
import SuiteScore.Proofs.Feature.Refusal
import SuiteScore.Proofs.Feature.RenderedRows
import SuiteScore.Proofs.Feature.SharedTags
import SuiteScore.Proofs.Files.Canonical
import SuiteScore.Proofs.Gherkin.Neighbors
import SuiteScore.Proofs.Report.Colors
import SuiteScore.Proofs.Report.Points
import SuiteScore.Proofs.Rule.HooksFile
import SuiteScore.Proofs.Rule.Overrides
import SuiteScore.Proofs.Scan.Accounting
import SuiteScore.Proofs.Score.Duplicates
import SuiteScore.Proofs.Score.Indentation
import SuiteScore.Proofs.Score.Marked
import SuiteScore.Proofs.Score.RuleOrder
import SuiteScore.Proofs.Settings.Resolution
import SuiteScore.Proofs.Support.BlockCall
import SuiteScore.Proofs.Support.DefinitionGrammar
import SuiteScore.Proofs.Support.HookTags
import SuiteScore.Proofs.Support.NestedBody
import SuiteScore.Proofs.Support.SupportFile
import SuiteScore.Proofs.Support.Unterminated
