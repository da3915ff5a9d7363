import HrcRuntime.InputLedger
import HrcRuntime.OfflineEvidencePaging
import HrcRuntime.RetentionHold
import HrcRuntime.CoalesceForest
import HrcRuntime.SubmissionAdmissions
import HrcRuntime.MailDelivery
import HrcRuntime.StopRefusal
import HrcRuntime.DurableQueue
import HrcRuntime.EventPage
import HrcRuntime.BlobIngest
import HrcRuntime.Placement
import HrcRuntime.Designation
import HrcRuntime.AuthorityLock
import HrcRuntime.RunIdOwnership
import HrcRuntime.LifecyclePosition
import HrcRuntime.Backfill
import HrcRuntime.TurnAdmissionFence
import HrcRuntime.MetadataHistory
import HrcRuntime.AttemptHistory
import HrcRuntime.FollowOrder
import HrcRuntime.SessionPaging
import HrcRuntime.EventFollow
import HrcRuntime.TranscriptIndexing
import HrcRuntime.CollectiveOutbox
import HrcRuntime.FirstTurnHonesty
import HrcRuntime.NativeResolution
import HrcRuntime.RuntimeStartOneBirth
import HrcRuntime.Format2Receipts
import HrcRuntime.SeatAnnotationSafety
import HrcRuntime.NativeStreamAccount
import HrcRuntime.NativeSubscribers
import HrcRuntime.ServerLockAlone
import HrcRuntime.HandoffAnswers
import HrcRuntime.LivenessRuns
import HrcRuntime.MaintenanceRuns
import HrcRuntime.StateRetentionRuns
import HrcRuntime.ToolResultMaintenance
import HrcRuntime.SlotClaimRuns
import HrcRuntime.BirthRuns
import HrcRuntime.SessionIndexRuns
import HrcRuntime.EventConsumer
import HrcRuntime.ReplaySuffix
import HrcRuntime.RegistryRebuild
import HrcRuntime.SpillStub
import HrcRuntime.MessageBuffer
import HrcRuntime.SummonAuthority
import HrcRuntime.TurnRelease
import HrcRuntime.SettlementPreview
import HrcRuntime.LifecycleHistory
import HrcRuntime.Scope
import HrcRuntime.TerminalResponder
import HrcRuntime.AcpEventBridge
import HrcRuntime.LeasedAdmission
import HrcRuntime.SessionEvents
import HrcRuntime.SessionRecency
import HrcRuntime.MonitorProjection
import HrcRuntime.AttentionPaging
import HrcRuntime.AttentionAppend
import HrcRuntime.DateParse
import HrcRuntime.CallEffects
