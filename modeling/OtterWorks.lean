import OtterWorks.Gateway.BreakerLiveness
import OtterWorks.Gateway.Identity
import OtterWorks.Gateway.TokenAgreement
import OtterWorks.Gateway.RateLimit
import OtterWorks.Migration.LoadAgreement
import OtterWorks.Migration.LoadTable
import OtterWorks.Migration.ValidateTable
import OtterWorks.Migration.ReferenceSafety
import OtterWorks.Migration.PurgeSafety
import OtterWorks.Migration.ArchiveGrowth
import OtterWorks.Migration.RecordRoundTrip
import OtterWorks.Migration.Timestamps
import OtterWorks.Migration.Partition
import OtterWorks.Migration.ClassBalance
import OtterWorks.Migration.ClassSources
import OtterWorks.Insurance.RateChanges
import OtterWorks.Insurance.CommissionSplits
import OtterWorks.Billing.PlanRuns
import OtterWorks.Billing.CreditUse
import OtterWorks.Billing.Dunning
import OtterWorks.Billing.FinalizedRows
import OtterWorks.Files.RecordRuns
import OtterWorks.Files.ShareRuns
import OtterWorks.Files.Folders
import OtterWorks.Tickets.DispatchRuns
import OtterWorks.Documents.VersionRuns
import OtterWorks.Collab.EditRuns
import OtterWorks.Collab.JoinRuns
import OtterWorks.Tickets.RetryHints
import OtterWorks.Tickets.OutboundSize
import OtterWorks.Tickets.MirroringRuns
import OtterWorks.Tickets.Serial
import OtterWorks.Tenants.OrphanSafety
import OtterWorks.Tenants.Lifecycle
import OtterWorks.Tenants.LifetimeRuns
import OtterWorks.Tenants.IdleRuns
import OtterWorks.Tenants.InfraSafety
import OtterWorks.Tenants.TtlAgreement
import OtterWorks.Tenants.Trust
import OtterWorks.Tenants.SanitizeAgreement
import OtterWorks.Auth.PasswordRuns
import OtterWorks.Auth.SessionRuns
import OtterWorks.Tickets.StoreRuns
import OtterWorks.Search.FileTracking
import OtterWorks.Search.Convergence
import OtterWorks.Search.Pages
import OtterWorks.Analytics.MarginRuns
import OtterWorks.Audit.ArchiveRuns
import OtterWorks.Audit.DateQueries
import OtterWorks.Analytics.Market
import OtterWorks.Portal.Agreement
import OtterWorks.Notifications.DeliveryRuns
import OtterWorks.Portal.DataApiRuns
import OtterWorks.Analytics.Rollups
import OtterWorks.Analytics.Acceptance
import OtterWorks.Reports.BusinessHash
import OtterWorks.Migration.DerivedTypes
