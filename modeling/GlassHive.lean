import GlassHive.GcCommit
import GlassHive.Authority
import GlassHive.Ownership
import GlassHive.DeliveryLeases
import GlassHive.AttemptHistory
import GlassHive.IsolatedAdmission
import GlassHive.ActionExecutors
import GlassHive.ProviderElection
import GlassHive.TurnOrder
import GlassHive.ScheduleAgreement
import GlassHive.Ledgers
import GlassHive.NativeReplies
import GlassHive.LivenessCounts
import GlassHive.RouteExits
import GlassHive.NativeSettlement
import GlassHive.SessionStability
import GlassHive.CancelledSchedules
import GlassHive.FinalizationPaths
import GlassHive.MainContext
import GlassHive.CapabilityGrants
import GlassHive.LoginThrottle
import GlassHive.PermissionScopes
import GlassHive.Preferences
import GlassHive.GrantRevocations
import GlassHive.RouteHealth
import GlassHive.WorkHistory
import GlassHive.RunFences
import GlassHive.UploadMerge
import GlassHive.DelegationLists
import GlassHive.DueWorkers
import GlassHive.RetryEpisodes
import GlassHive.LibraryVersions
import GlassHive.StoredRecurrences
import GlassHive.RuleCounts
import GlassHive.BrokerAdmission
import GlassHive.LibraryProposals
import GlassHive.TemplateApprovals
import GlassHive.CapabilityRefusals
import GlassHive.LinkErrors
import GlassHive.NativeSummaries
import GlassHive.Reconciliation
