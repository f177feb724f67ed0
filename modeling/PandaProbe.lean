import PandaProbe.UsageLedger
import PandaProbe.QuotaScripts
import PandaProbe.UsageService
import PandaProbe.UsageRollback
import PandaProbe.StripeWebhook
import PandaProbe.TraceIsolation
import PandaProbe.SessionIsolation
import PandaProbe.Settlement
import PandaProbe.RenewalOrder
import PandaProbe.PeriodKeys
import PandaProbe.DeliveryOnce
import PandaProbe.OverageForfeit
import PandaProbe.Watermark
import PandaProbe.HobbyReset
import PandaProbe.WebhookOrder
import PandaProbe.SubscriptionCache
import PandaProbe.InvitationRace
import PandaProbe.RoleProvenance
import PandaProbe.ProjectViews
import PandaProbe.RetryEquivalence
import PandaProbe.MonitorRetries
import PandaProbe.LockProtocol
import PandaProbe.CliLogin
import PandaProbe.PrivilegeRace
import PandaProbe.MemberQuota
import PandaProbe.ScoreValues
import PandaProbe.AuthContext
import PandaProbe.MonitorConfiguration
import PandaProbe.RunMetrics
import PandaProbe.InvoiceHistory
import PandaProbe.TraceMerge
import PandaProbe.UsageSync
import PandaProbe.MetadataPatches
import PandaProbe.ChargeRounding
import PandaProbe.OwnershipCap
import PandaProbe.RunProgress
import PandaProbe.SignalReuse
import PandaProbe.MonitorSkip
import PandaProbe.SignUpOrder
import PandaProbe.EmbeddingCache
import PandaProbe.ProjectRace
import PandaProbe.Pagination
import PandaProbe.ScoreHistograms
import PandaProbe.CatastrophicTrace
import PandaProbe.DisplayedOverage
import PandaProbe.TraceRetry
import PandaProbe.SessionRetry
import PandaProbe.PendingOverage
import PandaProbe.IdempotencyKeys
import PandaProbe.ResourceNames
import PandaProbe.SearchText
import PandaProbe.LlmResponse
import PandaProbe.BatchTags
import PandaProbe.LoopDetection
import PandaProbe.SpanTree
import PandaProbe.MonitorDispatch
import PandaProbe.Grants
import PandaProbe.ApiKeys
import PandaProbe.TraceContent
import PandaProbe.Ingestion
import PandaProbe.Dialogue
import PandaProbe.Judges
import PandaProbe.TokenRefresh
import PandaProbe.OldestFirst
import PandaProbe.ReportDispatch
import PandaProbe.Aggregation
import PandaProbe.Percentiles
import PandaProbe.TraceAnalytics
import PandaProbe.ForeignKeys
import PandaProbe.TenantTables
import PandaProbe.SessionDetail
import PandaProbe.ScoreAnalytics
import PandaProbe.DistinctOn
import PandaProbe.Leaderboard
import PandaProbe.LateUsage
