import Bdb.Project.AttemptInvariant
import Bdb.Project.Replays
import Bdb.Project.Milestones
import Bdb.Project.HaltedRuns
import Bdb.Project.Acceptance
import Bdb.Project.Reconciliation
import Bdb.Queue.LaunchClaims
import Bdb.Queue.QueueLock
import Bdb.Continuation.LeaseSafety
import Bdb.Continuation.OpenAttempts
import Bdb.Continuation.Acknowledge
import Bdb.Continuation.OneSend
import Bdb.Continuation.StopAvailability
import Bdb.Continuation.AuditOrder
import Bdb.Session.LostRace
import Bdb.Scope.Confinement
import Bdb.Scope.MilestoneCrossing
import Bdb.Scope.StopOrder
import Bdb.Scope.UntilStoppedRuns
import Bdb.Scope.HeadOfLine
import Bdb.Budget.OverrideAudit
import Bdb.Work.KernelAgreement
import Bdb.Work.KernelRecovery
import Bdb.Retention.Tampering
import Bdb.Retention.SoundRuns
import Bdb.Retention.RoundTrip
import Bdb.Waiting.OneContinuation
import Bdb.Startup.InTurn
import Bdb.Recovery.OnceOnly
import Bdb.Recovery.RepairDiscipline
import Bdb.Recovery.BudgetAgreement
import Bdb.Bridge.ExecutionRuns
import Bdb.Bridge.QueueProgress
import Bdb.Bridge.PromotionScans
import Bdb.Bridge.OutboxBackoff
import Bdb.Bridge.StagedValidation
import Bdb.Environment.VersionOrder
import Bdb.Effects.DeadEnds
import Bdb.Effects.Candidate
import Bdb.Recovery.RepairScope
import Bdb.Continuation.ClosingReplays
import Bdb.Project.StoredPlans
import Bdb.Project.PlanDiffs
import Bdb.Project.Readiness
import Bdb.Migration.ShadowComparator
import Bdb.Project.StateLocks
import Bdb.Publication.Delivery
import Bdb.Policy.GateSoundness
import Bdb.Admission.OneTask
import Bdb.Resources.SafeCollection
