import SkCoord.CardStore.Equiv.AttemptLog
import SkCoord.CardStore.Equiv.ClaimSafety
import SkCoord.CardStore.Equiv.Completion
import SkCoord.CardStore.Equiv.CreateBytes
import SkCoord.CardStore.Equiv.CycleCheck
import SkCoord.CardStore.Equiv.CreateRecover
import SkCoord.CardStore.Equiv.LegacyFiles
import SkCoord.CardStore.Equiv.LogFile
import SkCoord.Cmdb.Equiv.Accounts
import SkCoord.Cmdb.Equiv.Aliases
import SkCoord.Cmdb.Equiv.Ownership
import SkCoord.Cmdb.Equiv.Retirement
import SkCoord.Cmdb.Equiv.Secrets
import SkCoord.Coordination.Equiv.AttemptMemory
import SkCoord.Coordination.Equiv.Helpers
import SkCoord.Coordination.Equiv.Import
import SkCoord.Coordination.Equiv.Losers
import SkCoord.Coordination.Equiv.Pages
import SkCoord.Coordination.Equiv.Reconcile
import SkCoord.Itil.Equiv.Window
import SkCoord.Lifecycle.Equiv.EvidenceVocab
import SkCoord.Lifecycle.Equiv.Rollback
import SkCoord.Overlay.Equiv.RoundTrip
import SkCoord.Portfolio.Equiv.Canonical
import SkCoord.Portfolio.Equiv.Order
import SkCoord.Portfolio.Equiv.Ranking
import SkCoord.Portfolio.Equiv.Review
import SkCoord.Review.Equiv.Head
import SkCoord.Review.Equiv.Outcomes
import SkCoord.Coordination.Equiv.Ending
import SkCoord.Scheduler.Equiv.Annotation
import SkCoord.Scheduler.Equiv.Readiness
import SkCoord.Lifecycle.Equiv.DeadWorkers
import SkCoord.Cmdb.Equiv.Impact
import SkCoord.Snapshot.Equiv.Paths
import SkCoord.Cmdb.Equiv.Tags
import SkCoord.Cmdb.Equiv.MergeOrder
import SkCoord.Itil.Equiv.Resolution
import SkCoord.Lifecycle.Equiv.EvidenceVocab
import SkCoord.Portfolio.Equiv.Ranking
