import Orchestrator.Checks.ChapterScope
import Orchestrator.Checks.GlobDialect
import Orchestrator.Config.UpgradeLaw
import Orchestrator.Decomposition.ArtifactPaths
import Orchestrator.Decomposition.FanOutRuns
import Orchestrator.Decomposition.SkippedSubtasks
import Orchestrator.Exchange.Lossless
import Orchestrator.Exchange.PublishKept
import Orchestrator.Flow.Budgets
import Orchestrator.Flow.BundleVerdict
import Orchestrator.Flow.CheckedPublish
import Orchestrator.Flow.Citations
import Orchestrator.Flow.DisabledNodes
import Orchestrator.Flow.FollowUps
import Orchestrator.Flow.GraphSound
import Orchestrator.Flow.Prompts
import Orchestrator.Flow.Regions
import Orchestrator.Flow.ResumeCheck
import Orchestrator.Flow.ToolLinks
import Orchestrator.Flow.ToolRounds
import Orchestrator.Git.Capture
import Orchestrator.Git.ChainBounds
import Orchestrator.Git.ChainListing
import Orchestrator.Git.ChangedEntries
import Orchestrator.Git.MergeTask
import Orchestrator.Git.StagedCode
import Orchestrator.Hitl.Answers
import Orchestrator.Hitl.DiffGate
import Orchestrator.Memory.AuditVerified
import Orchestrator.Memory.DryRunCounts
import Orchestrator.Memory.Lookups
import Orchestrator.Memory.PacketRanking
import Orchestrator.Memory.Rollback
import Orchestrator.ProcessControl.OneDriver
import Orchestrator.ProcessControl.Quiescence
import Orchestrator.ProcessControl.SoleExecutor
import Orchestrator.ProcessControl.Stop
import Orchestrator.Providers.LastResult
import Orchestrator.Recovery.ArchiveRuns
import Orchestrator.Recovery.Park
import Orchestrator.Recovery.Phases
import Orchestrator.Recovery.TerminalRecords
import Orchestrator.Reports.SummarySections
import Orchestrator.Routing.Cancellation
import Orchestrator.Routing.StageResets
import Orchestrator.Scheduling.WatchOnce
import Orchestrator.Security.ChildEnv
import Orchestrator.Security.EnvPaths
import Orchestrator.Security.ForbiddenArgs
import Orchestrator.Security.RedactedLines
import Orchestrator.Store.Rerun
import Orchestrator.Supervisor.LaunchHistory
import Orchestrator.Supervisor.PacketFindings
import Orchestrator.Supervisor.Session
import Orchestrator.TaskFile.Kept
import Orchestrator.TaskFile.TravelLaw
import Orchestrator.Usage.Sessions
