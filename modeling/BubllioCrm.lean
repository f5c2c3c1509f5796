import BubllioCrm.Subscriptions.Ledger
import BubllioCrm.Subscriptions.Continuity
import BubllioCrm.Subscriptions.History
import BubllioCrm.Subscriptions.Coverage
import BubllioCrm.Subscriptions.Clients
import BubllioCrm.Subscriptions.Limits
import BubllioCrm.Subscriptions.Terms
import BubllioCrm.Subscriptions.Interleaved
import BubllioCrm.Subscriptions.Suspension
import BubllioCrm.Subscriptions.PeriodClose
import BubllioCrm.Subscriptions.NextCharge
import BubllioCrm.Subscriptions.Overview
import BubllioCrm.Subscriptions.Recurring
import BubllioCrm.Subscriptions.BillingDay
import BubllioCrm.Subscriptions.Creation
import BubllioCrm.Subscriptions.Periods
import BubllioCrm.Delivery.Attempts
import BubllioCrm.Delivery.Backoff
import BubllioCrm.UpdateAgent.Pinning
import BubllioCrm.Onboarding.Responses
import BubllioCrm.Onboarding.Agreement
import BubllioCrm.UpdateAgent.LifeCycle
import BubllioCrm.UpdateAgent.VersionSafety
import BubllioCrm.UpdateAgent.EventLog
import BubllioCrm.UpdateAgent.Idempotency
import BubllioCrm.Activities.Workflow
import BubllioCrm.Deals.Serialisable
import BubllioCrm.Deals.StageHistory
import BubllioCrm.Customers.Relations
import BubllioCrm.Customers.Removals
import BubllioCrm.Contacts.Primary
import BubllioCrm.Access.Tokens
import BubllioCrm.Access.AuditLog
import BubllioCrm.Companies.Codes
import BubllioCrm.Companies.Assignments
import BubllioCrm.Tenancy.Currencies
import BubllioCrm.Costing.Snapshots
import BubllioCrm.Onboarding.BusinessTransfer
import BubllioCrm.Frontend.Session
import BubllioCrm.Frontend.MoveDeal
import BubllioCrm.Deals.Moves
import BubllioCrm.Deals.Amounts
import BubllioCrm.Deals.TaxSplit
import BubllioCrm.Costing.Profitability
import BubllioCrm.Onboarding.Containment
import BubllioCrm.UpdateAgent.ManifestSchema
import BubllioCrm.UpdateAgent.ReleaseSource
import BubllioCrm.Onboarding.VersionTexts
import BubllioCrm.Organizations.ActivityInbox
import BubllioCrm.Organizations.GlobalSearch
import BubllioCrm.Logging.Redaction
import BubllioCrm.UpdateAgent.ReleaseScript
import BubllioCrm.UpdateAgent.Deployment
import BubllioCrm.UpdateAgent.Processes
import BubllioCrm.UpdateAgent.Health
import BubllioCrm.Onboarding.Administrators
import BubllioCrm.Organizations.Credentials
import BubllioCrm.Frontend.Dragging
