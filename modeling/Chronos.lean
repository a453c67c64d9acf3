import Chronos.Lib.Table
import Chronos.Lib.Trace
import Chronos.Lib.Exclusive
import Chronos.Lib.TokenBucket
import Chronos.Schema
import Chronos.Retry
import Chronos.System
import Chronos.Steps
import Chronos.Writers
import Chronos.Locks
import Chronos.Exclusivity
import Chronos.Ownership
import Chronos.ApiRaces
import Chronos.ConcurrencyLimit
import Chronos.Cron
import Chronos.Requeue
import Chronos.CrashRecovery
import Chronos.Submission
import Chronos.Records
import Chronos.Attempts
import Chronos.AttemptHistory
import Chronos.Dormant
import Chronos.DeadLetters
import Chronos.AttemptLimit
import Chronos.LastAttempt
import Chronos.Runnable
import Chronos.PartialReap
import Chronos.Shutdown
import Chronos.Requests
import Chronos.Idempotency
import Chronos.RateLimit
import Chronos.Tenancy
import Chronos.Rbac
import Chronos.Lib.Query
import Chronos.Lib.Pages
import Chronos.Pagination
import Chronos.JobReads
import Chronos.ApiView
import Chronos.Responses
import Chronos.Isolation
import Chronos.Auth
import Chronos.RefreshTokens
import Chronos.Lib.SkipScan
import Chronos.PollCycles
import Chronos.Pausing
import Chronos.Overshoot
import Chronos.ClaimScan
import Chronos.AttemptNumbers
import Chronos.DeadWorkers
import Chronos.Logout
import Chronos.Lib.Latest
import Chronos.Messages
import Chronos.Socket
import Chronos.FanOut
import Chronos.EventStream
import Chronos.StreamOrder
import Chronos.Resubmission
import Chronos.CronTimes
import Chronos.ExecutorRuns
import Chronos.Outcomes
import Chronos.HandlerOutcome
import Chronos.Materialization
import Chronos.SingleTick
import Chronos.WorkerProcess
import Chronos.StopRequests
import Chronos.CyclesInTurn
import Chronos.OrphanOwners
import Chronos.StaleMarks
import Chronos.RetryAfter
import Chronos.LatestExecution
import Chronos.RetryDelays
import Chronos.JobPages
import Chronos.HeartbeatHistory
import Chronos.RequireAuth
import Chronos.BatchOfOne
import Chronos.LogOrder
import Chronos.HandlerRegistry
import Chronos.SessionRefresh
import Chronos.SerialRuns
import Chronos.Lib.Simulation
import Chronos.Abandoned
import Chronos.Lifecycle
import Chronos.ReadBack
import Chronos.Lib.Retention
import Chronos.WorkerReads
import Chronos.ExecutionHistory
import Chronos.LostSlots
import Chronos.Lib.GroupBy
import Chronos.Directory
import Chronos.DirectoryIsolation
import Chronos.Accounts
import Chronos.Platform
import Chronos.TenantOwners
import Chronos.TenantWrites
import Chronos.Noninterference
import Chronos.Handlers
