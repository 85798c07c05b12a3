import ChoiceExplorer.Config.File
import ChoiceExplorer.Config.Overrides
import ChoiceExplorer.Host.Basic
import ChoiceExplorer.Json.Records
import ChoiceExplorer.Program.Script
import ChoiceExplorer.Proofs.BlindRuns
import ChoiceExplorer.Proofs.Calls
import ChoiceExplorer.Proofs.ChoiceTree
import ChoiceExplorer.Proofs.DepthLimit
import ChoiceExplorer.Proofs.Endings
import ChoiceExplorer.Proofs.Exploration
import ChoiceExplorer.Proofs.FaithfulReplay
import ChoiceExplorer.Proofs.Faults
import ChoiceExplorer.Proofs.GeneratorTexts
import ChoiceExplorer.Proofs.Keeping
import ChoiceExplorer.Proofs.LateCalls
import ChoiceExplorer.Proofs.LatePaths
import ChoiceExplorer.Proofs.LateRetirement
import ChoiceExplorer.Proofs.Leaves
import ChoiceExplorer.Proofs.Moments
import ChoiceExplorer.Proofs.Offers
import ChoiceExplorer.Proofs.Path
import ChoiceExplorer.Proofs.RecordedRequests
import ChoiceExplorer.Proofs.ScriptRuns
import ChoiceExplorer.Proofs.StrictProgress
import ChoiceExplorer.Proofs.Summaries
import ChoiceExplorer.Proofs.Trail
import ChoiceExplorer.Proofs.TreeWalk
import ChoiceExplorer.Proofs.ViolationPaths
import ChoiceExplorer.Proofs.Visit
import ChoiceExplorer.Proofs.FirstViolation
import ChoiceExplorer.Proofs.FinalState
import ChoiceExplorer.Proofs.Draws
import ChoiceExplorer.Proofs.Enumeration
import ChoiceExplorer.Proofs.CutBuffers
import ChoiceExplorer.Proofs.CutReports
import ChoiceExplorer.Proofs.CallbackOrder
import ChoiceExplorer.Proofs.ErrorIds
import ChoiceExplorer.Proofs.WholeReports
import ChoiceExplorer.Proofs.FailingSinks
import ChoiceExplorer.Proofs.Concatenation
import ChoiceExplorer.Proofs.Locations
import ChoiceExplorer.Proofs.OneTrace
import ChoiceExplorer.Proofs.IndependentRuns
import ChoiceExplorer.Proofs.AgreeingSources
import ChoiceExplorer.Proofs.IntervalWalks
import ChoiceExplorer.Proofs.VisibleChoices
import ChoiceExplorer.Proofs.ListItems
import ChoiceExplorer.Proofs.TraceTexts
