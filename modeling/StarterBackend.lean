import StarterBackend.Lib.Machine
import StarterBackend.Lib.Program
import StarterBackend.Lib.Alike
import StarterBackend.Lib.Always
import StarterBackend.Lib.BitFields
import StarterBackend.Lib.Brackets
import StarterBackend.Lib.Custody
import StarterBackend.Lib.Ilike
import StarterBackend.Lib.IsoTime
import StarterBackend.Lib.Json
import StarterBackend.Lib.Keyset
import StarterBackend.Lib.Ledger
import StarterBackend.Lib.Lifetimes
import StarterBackend.Lib.Once
import StarterBackend.Lib.Permits
import StarterBackend.Lib.Phases
import StarterBackend.Lib.PyText
import StarterBackend.Lib.RedisKeys
import StarterBackend.Lib.RedisLists
import StarterBackend.Lib.Relational
import StarterBackend.Lib.Rely
import StarterBackend.Lib.Table
import StarterBackend.Queue.Job
import StarterBackend.Queue.Operations
import StarterBackend.Queue.Conservation
import StarterBackend.Queue.Exact
import StarterBackend.Queue.FailedQueue
import StarterBackend.Queue.Runs
import StarterBackend.Queue.Stamps
import StarterBackend.Queue.Lifecycle
import StarterBackend.Queue.Crash
import StarterBackend.Queue.Leases
import StarterBackend.Queue.Maintenance
import StarterBackend.Queue.BadEntries
import StarterBackend.Queue.Delays
import StarterBackend.Queue.Reaper
import StarterBackend.Worker.Scheduler
import StarterBackend.App.Models
import StarterBackend.App.Database
import StarterBackend.App.Commands
import StarterBackend.App.Permissions
import StarterBackend.App.Services
import StarterBackend.App.Auth
import StarterBackend.App.Faults
import StarterBackend.App.Routes
import StarterBackend.App.Flushes
import StarterBackend.Sessions.PasswordReset
import StarterBackend.Sessions.Interrupted
import StarterBackend.Sessions.ResetJobs
import StarterBackend.Sessions.DeliveredLinks
import StarterBackend.Sessions.SingleUse
import StarterBackend.Tenants.AuditTrail
import StarterBackend.Tenants.Migration
import StarterBackend.Users.Listing
import StarterBackend.Users.Paging
import StarterBackend.Users.Writes
import StarterBackend.Users.Mutations
import StarterBackend.Users.Deletion
import StarterBackend.Users.Staleness
import StarterBackend.Files.Validation
import StarterBackend.Files.Verdicts
import StarterBackend.Files.ObjectKeys
import StarterBackend.Files.Identifiers
import StarterBackend.Files.Scanner
import StarterBackend.Files.Spool
import StarterBackend.Files.Storage
import StarterBackend.Files.Uploads
import StarterBackend.Files.DanglingRows
import StarterBackend.Webhooks.Commands
import StarterBackend.Webhooks.Signature
import StarterBackend.Webhooks.Inbound
import StarterBackend.Webhooks.ScopeKeys
import StarterBackend.RateLimits.Identity
import StarterBackend.RateLimits.Window
import StarterBackend.RateLimits.Readmission
import StarterBackend.Webhooks.Requests
import StarterBackend.Webhooks.Runs
import StarterBackend.Webhooks.Locks
import StarterBackend.Webhooks.Replay
import StarterBackend.Webhooks.Verification
import StarterBackend.Accounts.Requests
import StarterBackend.Accounts.Grants
import StarterBackend.Accounts.Lawful
import StarterBackend.Accounts.Routes
import StarterBackend.Accounts.Mediation
import StarterBackend.Accounts.UserRows
import StarterBackend.Accounts.Confinement
import StarterBackend.Accounts.Versions
import StarterBackend.Accounts.Acceptance
import StarterBackend.Accounts.Tenancy
import StarterBackend.Users.Invalidation
import StarterBackend.Users.Freshness
import StarterBackend.Lib.Knowledge
