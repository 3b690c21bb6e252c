import Quoteboard.Board.Aggregator
import Quoteboard.Board.TimeSeries
import Quoteboard.Chart.Frame
import Quoteboard.Chart.Labels
import Quoteboard.Client.Channel
import Quoteboard.Client.Driver
import Quoteboard.Client.Event
import Quoteboard.Client.Session
import Quoteboard.Config.Settings
import Quoteboard.Config.Telemetry
import Quoteboard.Connection.Machine
import Quoteboard.Decimal.Shortest
import Quoteboard.Health.Pages
import Quoteboard.Health.Request
import Quoteboard.Json.Document
import Quoteboard.Json.Error
import Quoteboard.Json.Literal
import Quoteboard.Json.RawText
import Quoteboard.Json.Record
import Quoteboard.Json.Value
import Quoteboard.Json.Written
import Quoteboard.Market.Drafts
import Quoteboard.Market.Feed
import Quoteboard.Market.Identifier
import Quoteboard.Market.Snapshot
import Quoteboard.Market.Stored
import Quoteboard.Metrics.Exposition
import Quoteboard.Metrics.Recording
import Quoteboard.Proofs.Board.History
import Quoteboard.Proofs.Client.Acceptance
import Quoteboard.Proofs.Client.Attempts
import Quoteboard.Proofs.Client.EventGrammar
import Quoteboard.Proofs.Client.Reconnection
import Quoteboard.Proofs.Client.Run
import Quoteboard.Proofs.Connection.Soundness
import Quoteboard.Relay.Hub
import Quoteboard.Relay.Pair
import Quoteboard.Relay.Reason
import Quoteboard.Relay.Registry
import Quoteboard.Relay.SourceLink
import Quoteboard.Table
import Quoteboard.Text.Blank
import Quoteboard.Text.Numeral
import Quoteboard.Text.Printable
import Quoteboard.Text.Quoted
import Quoteboard.Transport.Duration
import Quoteboard.Transport.Event
import Quoteboard.Viewer.Consumer
import Quoteboard.Viewer.Log
import Quoteboard.Viewer.LogSink
import Quoteboard.Viewer.Run
import Quoteboard.Proofs.Relay.Forwarding
import Quoteboard.Proofs.Relay.Closing
import Quoteboard.Proofs.Relay.Accounting
import Quoteboard.Proofs.Json.Grammar
import Quoteboard.Proofs.Json.Scanning
import Quoteboard.Proofs.Json.Reading
import Quoteboard.Proofs.Json.Records
import Quoteboard.Proofs.Market.KeyOrder
import Quoteboard.Proofs.Market.Format
import Quoteboard.Proofs.Market.Decoding
import Quoteboard.Proofs.Client.Transports
import Quoteboard.Proofs.Connection.Operations
import Quoteboard.Proofs.Client.Stopping
import Quoteboard.Proofs.Client.Delivery
import Quoteboard.Proofs.Client.Exchange
import Quoteboard.Proofs.Connection.Generations
import Quoteboard.Proofs.Client.Buffering
import Quoteboard.Proofs.Client.Publication
import Quoteboard.Proofs.Client.Pairing
import Quoteboard.Proofs.Client.Sessions
import Quoteboard.Proofs.Text.ByteOrder
import Quoteboard.Proofs.Text.Numerals
import Quoteboard.Proofs.Json.Parts
import Quoteboard.Proofs.Market.Shapes
import Quoteboard.Proofs.Board.Retention
import Quoteboard.Proofs.Viewer.Rendering
import Quoteboard.Proofs.Viewer.Schedules
import Quoteboard.Proofs.Relay.Opening
import Quoteboard.Proofs.Relay.Readiness
import Quoteboard.Proofs.Config.Windows
import Quoteboard.Proofs.Connection.Retries
import Quoteboard.Proofs.Json.Extension
import Quoteboard.Proofs.Json.Editing
import Quoteboard.Proofs.Market.Additions
import Quoteboard.Proofs.Market.Integers
import Quoteboard.Proofs.Board.Outcomes
import Quoteboard.Proofs.Chart.Panels
import Quoteboard.Proofs.Relay.Lifecycle
import Quoteboard.Proofs.Text.Trimming
import Quoteboard.Proofs.Chart.LabelLists
import Quoteboard.Proofs.Config.Reading
import Quoteboard.Proofs.Config.Padding
import Quoteboard.Proofs.Viewer.Warnings
import Quoteboard.Proofs.Double.Order
import Quoteboard.Proofs.Double.Rounding
import Quoteboard.Proofs.Double.Arithmetic
import Quoteboard.Proofs.Chart.Bounds
import Quoteboard.Proofs.Json.Numbers
import Quoteboard.Proofs.Market.Arrays
import Quoteboard.Proofs.Json.Writing
import Quoteboard.Proofs.Market.Storing
