import ChangeFeed.Binary64.Arithmetic
import ChangeFeed.Binary64.Shortest
import ChangeFeed.Text.Blank
import ChangeFeed.Text.Segment
import ChangeFeed.Text.Numeral
import ChangeFeed.Text.Utf8
import ChangeFeed.Json.Writer
import ChangeFeed.Json.Reader
import ChangeFeed.Instant.Layout
import ChangeFeed.Instant.Printer
import ChangeFeed.Record.Codec
import ChangeFeed.Router
import ChangeFeed.Event.Basic
import ChangeFeed.Timeline.Limit
import ChangeFeed.Retry.Loop
import ChangeFeed.Store.Request
import ChangeFeed.Store.Faulty
import ChangeFeed.Engine.Handle
import ChangeFeed.Log.Scripted
import ChangeFeed.Log.Faulty
import ChangeFeed.Consumer.Run
import ChangeFeed.Metrics.Snapshot
import ChangeFeed.Metrics.Exposition
import ChangeFeed.Configuration.Reader
import ChangeFeed.Operator.Endpoint
import ChangeFeed.Proofs.Engine.Work
import ChangeFeed.Proofs.Engine.Account
import ChangeFeed.Proofs.Engine.InMemory
import ChangeFeed.Proofs.Engine.Redelivery
import ChangeFeed.Proofs.Consumer.Acknowledgement
import ChangeFeed.Proofs.Engine.Colocation
import ChangeFeed.Proofs.Retry.Attempts
import ChangeFeed.Proofs.Engine.Attempts
import ChangeFeed.Proofs.Engine.Atomicity
import ChangeFeed.Proofs.Engine.AttemptCount
import ChangeFeed.Proofs.Binary64.Rounding
import ChangeFeed.Proofs.Text.Numeral
import ChangeFeed.Proofs.Record.Coercion
import ChangeFeed.Proofs.Consumer.Backoff
import ChangeFeed.Proofs.Consumer.Bookkeeping
import ChangeFeed.Proofs.Consumer.CommitFailure
import ChangeFeed.Proofs.Engine.Indifference
import ChangeFeed.Proofs.Engine.Interleaving
import ChangeFeed.Proofs.Result
import ChangeFeed.Proofs.Record.Decoding
import ChangeFeed.Proofs.Engine.Typing
import ChangeFeed.Proofs.Retry.Schedule
import ChangeFeed.Proofs.Instant.RoundTrip
import ChangeFeed.Proofs.Record.RoundTrip
import ChangeFeed.Proofs.Json.Token
import ChangeFeed.Proofs.Json.Grammar
import ChangeFeed.Proofs.Event.Payload
import ChangeFeed.Proofs.Event.Layouts
import ChangeFeed.Proofs.Engine.Erasure
import ChangeFeed.Proofs.Engine.Comparison
import ChangeFeed.Proofs.Engine.Deadline
import ChangeFeed.Proofs.Engine.Verdict
import ChangeFeed.Proofs.Engine.Alike
import ChangeFeed.Proofs.Engine.Advice
import ChangeFeed.Proofs.Text.Blank
import ChangeFeed.Proofs.Text.Segment
import ChangeFeed.Proofs.Routing
import ChangeFeed.Proofs.Record.Columns
import ChangeFeed.Proofs.Record.PlainIntegers
import ChangeFeed.Proofs.Instant.Layouts
import ChangeFeed.Proofs.Configuration.Aliases
import ChangeFeed.Proofs.Configuration.Acceptance
import ChangeFeed.Proofs.Store.Requests
import ChangeFeed.Proofs.Store.Chains
import ChangeFeed.Proofs.Store.Catalogue
import ChangeFeed.Proofs.Engine.Gains
import ChangeFeed.Proofs.Engine.Reconciliation
import ChangeFeed.Proofs.Consumer.Growth
import ChangeFeed.Proofs.Retry.Budget
import ChangeFeed.Proofs.Log.Script
import ChangeFeed.Proofs.Metrics.Observation
import ChangeFeed.Proofs.Store.Balance
import ChangeFeed.Proofs.Text.Utf8
import ChangeFeed.Proofs.Json.Canonical
import ChangeFeed.Proofs.Json.Writing
import ChangeFeed.Proofs.Record.Texts
