import TinyAutomator.Lib.Transition
import TinyAutomator.Lib.Pool
import TinyAutomator.Lib.Kahn
import TinyAutomator.Models
import TinyAutomator.Graph
import TinyAutomator.GraphLevels
import TinyAutomator.Run.Infra
import TinyAutomator.Run.System
import TinyAutomator.Run.Steps
import TinyAutomator.Run.Causality
import TinyAutomator.Run.Overlap
import TinyAutomator.Run.WakeUp
import TinyAutomator.Run.Success
import TinyAutomator.Run.Finished
import TinyAutomator.Run.Quiescent
import TinyAutomator.Access
import TinyAutomator.Lib.Fold
import TinyAutomator.Workflows.Tables
import TinyAutomator.Workflows.Triggers
import TinyAutomator.Workflows.Service
import TinyAutomator.Workflows.Written
import TinyAutomator.Workflows.Effects
import TinyAutomator.Workflows.Saves
import TinyAutomator.Workflows.Rows
import TinyAutomator.Workflows.Polls
import TinyAutomator.Workflows.Silence
import TinyAutomator.Workflows.Shutdown
import TinyAutomator.Messages
import TinyAutomator.Workflows.Replaces
import TinyAutomator.Workflows.Atomic
import TinyAutomator.Workflows.Calendar
import TinyAutomator.Lib.Civil
import TinyAutomator.Workflows.Recurrence
import TinyAutomator.Workflows.Fleet
import TinyAutomator.Workflows.Occurrences
import TinyAutomator.Workflows.Edits
import TinyAutomator.Workflows.CalendarEdits
import TinyAutomator.Workflows.Cancellations
import TinyAutomator.GraphDepths
import TinyAutomator.Workflows.Joins
import TinyAutomator.Workflows.Created
import TinyAutomator.Workflows.Reloads
import TinyAutomator.Workflows.Readers
import TinyAutomator.Workflows.Creations
import TinyAutomator.Workflows.Histories
import TinyAutomator.Lib.Deferred
import TinyAutomator.Workflows.Transactions
import TinyAutomator.Integrations
import TinyAutomator.Run.DeadLetters
import TinyAutomator.Subscription
import TinyAutomator.Lib.Replay
import TinyAutomator.Run.Roots
import TinyAutomator.Run.LiveCanvas
import TinyAutomator.Lib.Iterates
import TinyAutomator.Workflows.CatchUp
import TinyAutomator.Workflows.EventClaims
import TinyAutomator.Workflows.CalendarTriggers
import TinyAutomator.Workflows.ScheduledRuns
import TinyAutomator.Workflows.Siblings
import TinyAutomator.Workflows.Resaves
import TinyAutomator.Workflows.Vetted
import TinyAutomator.Workflows.Repeats
import TinyAutomator.Run.Counts
import TinyAutomator.Run.Refills
import TinyAutomator.Run.Launch
import TinyAutomator.Run.Orphans
import TinyAutomator.Lib.Infix
import TinyAutomator.Workflows.Keywords
import TinyAutomator.Run.FanOut
import TinyAutomator.Supervision
import TinyAutomator.Reconnects
import TinyAutomator.Lib.Base64
import TinyAutomator.Lib.Rfc5322
import TinyAutomator.Mail
import TinyAutomator.Lib.JsText
import TinyAutomator.Workflows.CalendarForm
import TinyAutomator.Lib.Urlencoded
import TinyAutomator.Library.SearchParams
import TinyAutomator.Library.Filters
import TinyAutomator.Library.Pages
import TinyAutomator.Canvas
import TinyAutomator.Workflows.NilPointers
import TinyAutomator.Lib.Countdown
import TinyAutomator.Lib.Redis
import TinyAutomator.RedisClient
import TinyAutomator.Run.LastMark
import TinyAutomator.Run.RedisKeys
import TinyAutomator.Lib.Budget
import TinyAutomator.Lib.Topological
import TinyAutomator.Run.Keyed
import TinyAutomator.Lib.Covers
import TinyAutomator.Run.Brokered
import TinyAutomator.Run.Sequential
import TinyAutomator.Workflows.Tenants
import TinyAutomator.Connections
import TinyAutomator.Workflows.ScheduleForm
import TinyAutomator.Workflows.Builder
import TinyAutomator.Workflows.RunHistory
import TinyAutomator.Workflows.EmailForm
