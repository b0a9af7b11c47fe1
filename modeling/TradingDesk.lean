import TradingDesk.Alerts.Webhook
import TradingDesk.Collector.Codec
import TradingDesk.Collector.Poll
import TradingDesk.Collector.Stream
import TradingDesk.CommandLine
import TradingDesk.Exchange.Gateway
import TradingDesk.Fault.Codec
import TradingDesk.Feed.Client
import TradingDesk.Http.Address
import TradingDesk.Main
import TradingDesk.Rehearsal.Codec
import TradingDesk.Settings.Codec
import TradingDesk.Settings.Environment
import TradingDesk.Store.Codec
import TradingDesk.Trading.Paper
import TradingDesk.Trading.Staff
import TradingDesk.Trading.TargetPrice
import TradingDesk.Trading.Wiring
import TradingDesk.Watcher
import TradingDesk.Proofs.Decimal.RoundTrip
import TradingDesk.Proofs.Decimal.Order
import TradingDesk.Proofs.Decimal.Exact
import TradingDesk.Proofs.Decimal.Bounds
import TradingDesk.Proofs.Decimal.Quotient
import TradingDesk.Proofs.Decimal.Overflow
import TradingDesk.Proofs.Instant.Calendar
import TradingDesk.Proofs.Instant.RoundTrip
import TradingDesk.Proofs.Json.Settled
import TradingDesk.Proofs.Market.Documents
import TradingDesk.Proofs.Trading.Documents
import TradingDesk.Proofs.Trading.Runs
import TradingDesk.Proofs.Trading.Outline
import TradingDesk.Proofs.Trading.Tracing
import TradingDesk.Proofs.Trading.WriteAhead
import TradingDesk.Proofs.Trading.Bookings
import TradingDesk.Proofs.Trading.Redelivery
import TradingDesk.Proofs.Watcher.Polls
import TradingDesk.Proofs.Watcher.Subscriptions
import TradingDesk.Proofs.Watcher.Isolation
import TradingDesk.Proofs.Exchange.Amounts
import TradingDesk.Proofs.Trading.LateAcceptance
import TradingDesk.Proofs.Store
import TradingDesk.Proofs.Trading.Phases
import TradingDesk.Proofs.Trading.Calls
import TradingDesk.Proofs.Trading.Settlement
import TradingDesk.Proofs.Trading.Leaves
import TradingDesk.Proofs.Trading.Turns
import TradingDesk.Proofs.Trading.Exposure
import TradingDesk.Proofs.Trading.Bargains
import TradingDesk.Proofs.Trading.Practice
import TradingDesk.Proofs.Trading.Lots
import TradingDesk.Proofs.Trading.Targets
import TradingDesk.Proofs.Trading.Bare
import TradingDesk.Proofs.Trading.Restarts
import TradingDesk.Proofs.Trading.Paper
import TradingDesk.Proofs.Trading.Paper.Histories
import TradingDesk.Proofs.Trading.Neighbours
import TradingDesk.Proofs.Trading.Wiring
import TradingDesk.Proofs.Trading.Evaluations
import TradingDesk.Proofs.Trading.Pipeline
import TradingDesk.Proofs.Trading.Handover
import TradingDesk.Proofs.Store.AppendOnly
import TradingDesk.Proofs.Store.Records
import TradingDesk.Proofs.Backoff
import TradingDesk.Proofs.Store.Retries
import TradingDesk.Proofs.RateGate
import TradingDesk.Proofs.RateGate.Histories
import TradingDesk.Proofs.Collector.Pairing
import TradingDesk.Proofs.Collector.Pairing.Histories
import TradingDesk.Proofs.Collector.Polls
import TradingDesk.Proofs.Collector.RetryAfter
import TradingDesk.Proofs.Runnable
import TradingDesk.Proofs.Collector.Quotes
import TradingDesk.Proofs.Collector.Persisted
import TradingDesk.Proofs.Collector.Connections
import TradingDesk.Proofs.Collector.Noise
import TradingDesk.Proofs.Exchange.Replies
import TradingDesk.Proofs.Trading.Overflow
import TradingDesk.Proofs.Collector.Fetches
import TradingDesk.Proofs.Feed.Frames
import TradingDesk.Proofs.Settings.Credentials
import TradingDesk.Proofs.Trading.Staff
import TradingDesk.Proofs.Trading.Supply
