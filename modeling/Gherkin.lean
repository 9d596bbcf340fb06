import Gherkin.Proofs.Dialect.StepKeywords
import Gherkin.Proofs.Document.Attribution
import Gherkin.Proofs.Document.Comments
import Gherkin.Proofs.Document.Fencing
import Gherkin.Proofs.Document.Ownership
import Gherkin.Proofs.Document.Substitution
import Gherkin.Proofs.Document.WellFormed
import Gherkin.Proofs.Hook.Sequence
import Gherkin.Proofs.Report.Readability
import Gherkin.Proofs.Run.Bracketing
import Gherkin.Proofs.Run.Dispatch
import Gherkin.Proofs.Run.KeepGoing
import Gherkin.Proofs.Run.Outputs
import Gherkin.Proofs.Run.Truncation
import Gherkin.Proofs.Run.Verdicts
import Gherkin.Proofs.Settings.Setting
import Gherkin.Proofs.Step.Alignment
import Gherkin.Proofs.Step.Anchoring
import Gherkin.Proofs.Step.Meaning
import Gherkin.Proofs.Step.Suggestions
import Gherkin.Proofs.Text.Distance
import Gherkin.Run.Input
