import Settlement.Binary64
import Settlement.Binary64.Shortest
import Settlement.Blockchain
import Settlement.Bytes
import Settlement.Chain.BitcoinCash
import Settlement.Chain.BitcoinCash.Confirmer
import Settlement.Chain.BitcoinCash.Node
import Settlement.Chain.Dash
import Settlement.Chain.Dash.Confirmer
import Settlement.Chain.Dash.Service
import Settlement.Chain.Ethereum
import Settlement.Chain.Ethereum.Confirmer
import Settlement.Chain.Ethereum.Node
import Settlement.CommandLine
import Settlement.Config
import Settlement.Decimal
import Settlement.Decimal.Text
import Settlement.Duration
import Settlement.Email
import Settlement.Exchange
import Settlement.Failure
import Settlement.Hex
import Settlement.Http
import Settlement.Http.Status
import Settlement.Json.Access
import Settlement.Json.Amount
import Settlement.Json.Doc
import Settlement.Json.Doc.Parser
import Settlement.Json.Fault
import Settlement.Json.Number
import Settlement.Json.Record
import Settlement.Json.Value
import Settlement.LockTime
import Settlement.Locks
import Settlement.Locks.Shared
import Settlement.Main
import Settlement.Notice
import Settlement.Outcome
import Settlement.Payment
import Settlement.Policy
import Settlement.Polling
import Settlement.Power
import Settlement.Proofs.Binary64.Digits
import Settlement.Proofs.Binary64.Nearest
import Settlement.Proofs.Binary64.Shortest
import Settlement.Proofs.Chain.BitcoinCash.Amounts
import Settlement.Proofs.Chain.BitcoinCash.Ranking
import Settlement.Proofs.Chain.BitcoinCash.Reply
import Settlement.Proofs.Chain.BitcoinCash.Settled
import Settlement.Proofs.Chain.Cancellation
import Settlement.Proofs.Chain.Dash.Collected
import Settlement.Proofs.Chain.Dash.Counted
import Settlement.Proofs.Chain.Dash.Covered
import Settlement.Proofs.Chain.Dash.Distinct
import Settlement.Proofs.Chain.Dash.Patience
import Settlement.Proofs.Chain.Dash.Ranking
import Settlement.Proofs.Chain.Dash.Total
import Settlement.Proofs.Chain.Deadline
import Settlement.Proofs.Chain.Ethereum.Depth
import Settlement.Proofs.Chain.Ethereum.Punctual
import Settlement.Proofs.Chain.Ethereum.Ranking
import Settlement.Proofs.Chain.Ethereum.Verdict
import Settlement.Proofs.Chain.Pauses
import Settlement.Proofs.Chain.Scripts
import Settlement.Proofs.Clock
import Settlement.Proofs.Config.Limits
import Settlement.Proofs.Config.Range
import Settlement.Proofs.Config.Reading
import Settlement.Proofs.Config.Settings
import Settlement.Proofs.Course
import Settlement.Proofs.Deadline
import Settlement.Proofs.Decimal.Growth
import Settlement.Proofs.Decimal.Reading
import Settlement.Proofs.Decimal.Value
import Settlement.Proofs.Digits
import Settlement.Proofs.Ending
import Settlement.Proofs.Hex.Spelling
import Settlement.Proofs.Hosting
import Settlement.Proofs.Interleaving
import Settlement.Proofs.Json.Fields
import Settlement.Proofs.Json.Numerals
import Settlement.Proofs.Json.Objects
import Settlement.Proofs.Json.Parsing
import Settlement.Proofs.Json.Printing
import Settlement.Proofs.Json.Skipping
import Settlement.Proofs.Json.Spelled
import Settlement.Proofs.Json.Written
import Settlement.Proofs.Locks.Answers
import Settlement.Proofs.Locks.History
import Settlement.Proofs.Locks.Keys
import Settlement.Proofs.Lockstep
import Settlement.Proofs.Pace
import Settlement.Proofs.Publication
import Settlement.Proofs.Queue.Consumer.Handlers
import Settlement.Proofs.Queue.Consumer.Steps
import Settlement.Proofs.Queue.Memory.Deeds
import Settlement.Proofs.Queue.Memory.Order
import Settlement.Proofs.Queue.Memory.Places
import Settlement.Proofs.Queue.Memory.Unacknowledged
import Settlement.Proofs.Queue.Reconnection
import Settlement.Proofs.Queue.Stream.Acknowledged
import Settlement.Proofs.Queue.Stream.Backlog
import Settlement.Proofs.Queue.Stream.Bookkeeping
import Settlement.Proofs.Queue.Stream.Fetching
import Settlement.Proofs.Queue.Stream.Idle
import Settlement.Proofs.Queue.Stream.Moves
import Settlement.Proofs.Queue.Stream.Pages
import Settlement.Proofs.Queue.Stream.Recovery
import Settlement.Proofs.Queue.Stream.Redelivery
import Settlement.Proofs.Queue.Stream.Replay
import Settlement.Proofs.Queue.Stream.Sweeps
import Settlement.Proofs.Queue.Stream.TakenOver
import Settlement.Proofs.Queue.Stream.Visits
import Settlement.Proofs.Queue.Supervision
import Settlement.Proofs.Requests
import Settlement.Proofs.Shift
import Settlement.Proofs.Solo
import Settlement.Proofs.Store.Answers
import Settlement.Proofs.Store.Bookings
import Settlement.Proofs.Store.Books
import Settlement.Proofs.Timeline
import Settlement.Proofs.Verifier.Admission
import Settlement.Proofs.Verifier.Attempts
import Settlement.Proofs.Verifier.Cancellation
import Settlement.Proofs.Verifier.Checks
import Settlement.Proofs.Verifier.Dash
import Settlement.Proofs.Verifier.Ethereum
import Settlement.Proofs.Verifier.Shift
import Settlement.Proofs.Verifier.Span
import Settlement.Proofs.Workflow.Abandoned
import Settlement.Proofs.Workflow.Aftermath
import Settlement.Proofs.Workflow.Balance
import Settlement.Proofs.Workflow.Collaborators
import Settlement.Proofs.Workflow.Commutation
import Settlement.Proofs.Workflow.Contention
import Settlement.Proofs.Workflow.Crowd
import Settlement.Proofs.Workflow.Custody
import Settlement.Proofs.Workflow.Deliberation
import Settlement.Proofs.Workflow.Elsewhere
import Settlement.Proofs.Workflow.Errand
import Settlement.Proofs.Workflow.Exclusion
import Settlement.Proofs.Workflow.Forwards
import Settlement.Proofs.Workflow.Guild
import Settlement.Proofs.Workflow.Hashes
import Settlement.Proofs.Workflow.Judgement
import Settlement.Proofs.Workflow.Ledger
import Settlement.Proofs.Workflow.Mails
import Settlement.Proofs.Workflow.Published
import Settlement.Proofs.Workflow.Screening
import Settlement.Proofs.Workflow.Trail
import Settlement.Publish
import Settlement.Queue.Consumer
import Settlement.Queue.Delivery
import Settlement.Queue.Memory
import Settlement.Queue.Name
import Settlement.Queue.Stream
import Settlement.Queue.Stream.Entry
import Settlement.Queue.Stream.Position
import Settlement.Queue.Supervisor
import Settlement.Redis
import Settlement.Redis.Command
import Settlement.Rehearsal.Consuming
import Settlement.Rehearsal.Fetching
import Settlement.Rehearsal.Locking
import Settlement.Rehearsal.Node
import Settlement.Rehearsal.Report
import Settlement.Rehearsal.Session
import Settlement.Rehearsal.World
import Settlement.Request
import Settlement.Rounding
import Settlement.Schedule
import Settlement.Store
import Settlement.Text.Base64
import Settlement.Text.Blank
import Settlement.Text.Casing
import Settlement.Text.Casing.Table
import Settlement.Text.CodeRange
import Settlement.Text.Integer
import Settlement.Text.Part
import Settlement.Text.Quoted
import Settlement.Text.Quoted.Table
import Settlement.Timestamp
import Settlement.Turn
import Settlement.Url
import Settlement.Verifier
import Settlement.Workflow
