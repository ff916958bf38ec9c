import Highlight.Main
import Highlight.Proofs.Budget
import Highlight.Proofs.BudgetSize
import Highlight.Proofs.CaptureEntries
import Highlight.Proofs.CheckedFiles
import Highlight.Proofs.Conditions
import Highlight.Proofs.Coverage
import Highlight.Proofs.DepthLimit
import Highlight.Proofs.DisabledAnchors
import Highlight.Proofs.DocumentLines
import Highlight.Proofs.DroppedRules
import Highlight.Proofs.EarliestMatch
import Highlight.Proofs.Expansion
import Highlight.Proofs.FilledPatterns
import Highlight.Proofs.InnerScopes
import Highlight.Proofs.Leftmost
import Highlight.Proofs.LexicalScoping
import Highlight.Proofs.Links
import Highlight.Proofs.ListedScopes
import Highlight.Proofs.MatchReach
import Highlight.Proofs.NestedCaptures
import Highlight.Proofs.OpenFrames
import Highlight.Proofs.PathMap
import Highlight.Proofs.ReferenceSpelling
import Highlight.Proofs.ReplacedEscapes
import Highlight.Proofs.Restart
import Highlight.Proofs.RuleOrder
import Highlight.Proofs.SameRules
import Highlight.Proofs.ScopeFilling
import Highlight.Proofs.ScopeNesting
import Highlight.Proofs.SearchMemory
import Highlight.Proofs.Termination
import Highlight.Proofs.TokenizedCaptures
import Highlight.Proofs.Tower
import Highlight.Proofs.TreeNodes
import Highlight.Proofs.Unrelated
import Highlight.Scope.Order
