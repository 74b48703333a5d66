import ChoreReminder.Text.Casing
import ChoreReminder.Text.Html
import ChoreReminder.Text.Quoted
import ChoreReminder.Number.Binary64
import ChoreReminder.Datum.Encoding
import ChoreReminder.Calendar.Stamp
import ChoreReminder.Cron.Search
import ChoreReminder.Schedule.Agenda
import ChoreReminder.Log.Level
import ChoreReminder.Notify.Message
import ChoreReminder.Notify.Registry
import ChoreReminder.Ledger.Direct
import ChoreReminder.Ledger.Store
import ChoreReminder.Telegram.Channel
import ChoreReminder.Log.Notice
import ChoreReminder.Text.Uuid
import ChoreReminder.Telegram.Listener
import ChoreReminder.Notify.Generator
import ChoreReminder.Notify.Dispatcher
import ChoreReminder.Settings.Basic
import ChoreReminder.Notify.Service
import ChoreReminder.Telegram.Webhook
import ChoreReminder.Session.Programs
import ChoreReminder.Yaml.Document
import ChoreReminder.Main
import ChoreReminder.Proofs.Cron.Floor
import ChoreReminder.Proofs.Run.Accounting
import ChoreReminder.Proofs.Run.Agenda
import ChoreReminder.Proofs.Run.Lifecycle
import ChoreReminder.Proofs.Calendar.Order
import ChoreReminder.Proofs.Run.Effect
import ChoreReminder.Proofs.Ledger.Candidates
import ChoreReminder.Proofs.Run.Integrity
import ChoreReminder.Proofs.Schedule.NextDue
import ChoreReminder.Proofs.Run.Occurrence
import ChoreReminder.Proofs.Ledger.Backlog
import ChoreReminder.Proofs.Run.Drain
import ChoreReminder.Proofs.Run.Completed
import ChoreReminder.Proofs.Run.Outage
import ChoreReminder.Proofs.Run.Merge
import ChoreReminder.Proofs.Ledger.Transaction
import ChoreReminder.Proofs.Run.Generation
import ChoreReminder.Proofs.Run.Presses
import ChoreReminder.Proofs.Telegram.Repeat
import ChoreReminder.Proofs.Datum.Equality
import ChoreReminder.Proofs.Telegram.Polling
import ChoreReminder.Proofs.Telegram.Dialogue
import ChoreReminder.Proofs.Telegram.Breakdown
import ChoreReminder.Proofs.Telegram.Webhook
import ChoreReminder.Proofs.Settings.Senders
import ChoreReminder.Proofs.Run.Rules
import ChoreReminder.Proofs.Run.Stored
import ChoreReminder.Proofs.Run.Removal
import ChoreReminder.Proofs.Run.Apart
import ChoreReminder.Proofs.Run.Recorded
import ChoreReminder.Proofs.Run.Postponed
import ChoreReminder.Proofs.Run.Button
import ChoreReminder.Proofs.Run.Selection
import ChoreReminder.Proofs.Run.Dispatch
import ChoreReminder.Proofs.Run.Refusals
import ChoreReminder.Proofs.Settings.Precedence
import ChoreReminder.Proofs.Schedule.Order
import ChoreReminder.Proofs.Run.Listing
import ChoreReminder.Proofs.Cron.Rules
import ChoreReminder.Proofs.Cron.Fields
import ChoreReminder.Proofs.Cron.Reach
import ChoreReminder.Proofs.Schedule.Dates
import ChoreReminder.Proofs.Telegram.MessageText
import ChoreReminder.Proofs.Run.Posting
import ChoreReminder.Proofs.Run.Pressed
import ChoreReminder.Proofs.Run.Skipped
import ChoreReminder.Proofs.Run.Limits
import ChoreReminder.Proofs.CommandLine.Adding
import ChoreReminder.Proofs.Schedule.Interval
import ChoreReminder.Proofs.Ledger.Times
