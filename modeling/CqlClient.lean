import CqlClient.Bytes.Basic
import CqlClient.Bytes.TwosComplement
import CqlClient.Bytes.Hex
import CqlClient.Text.Blank
import CqlClient.Text.Quoted
import CqlClient.Number.Shortest
import CqlClient.Number.Rounding
import CqlClient.Time.Rfc3339
import CqlClient.Time.Span
import CqlClient.Uuid
import CqlClient.WireType.Reader
import CqlClient.NameMap
import CqlClient.Consistency
import CqlClient.Endpoint
import CqlClient.Value.Text
import CqlClient.Cell.Decode
import CqlClient.Cell.Literal
import CqlClient.Settings.Document
import CqlClient.Row
import CqlClient.Message.Request
import CqlClient.Message.Response
import CqlClient.Retry
import CqlClient.Query.Basic
import CqlClient.Toml.Reader
import CqlClient.Settings.Basic
import CqlClient.CommandLine.Parameter
import CqlClient.CommandLine.Loading
import CqlClient.Session.Rehearsal
import CqlClient.Retry.Loop
import CqlClient.Main
import CqlClient.Proofs.Cell.RoundTrip
import CqlClient.Proofs.Message.Request
import CqlClient.Proofs.Message.Field
import CqlClient.Proofs.Query.Binding
import CqlClient.Proofs.Session.Change
import CqlClient.Proofs.Session.Ownership
import CqlClient.Proofs.InFlight
import CqlClient.Proofs.Session.Shutdown
import CqlClient.Proofs.Session.Conversation
import CqlClient.Proofs.Session.Correlation
import CqlClient.Proofs.NameMap
import CqlClient.Proofs.Message.Frame
import CqlClient.Proofs.Message.TypeCode
import CqlClient.Proofs.Message.Response
import CqlClient.Proofs.InFlight.History
import CqlClient.Proofs.Session.Lifecycle
import CqlClient.Proofs.Session.Calls
import CqlClient.Proofs.Session.Script
import CqlClient.Proofs.Session.Scenes
import CqlClient.Proofs.Session.Pauses
import CqlClient.Proofs.Session.Waiters
import CqlClient.Proofs.Session.Drained
import CqlClient.Proofs.Value.Equality
import CqlClient.Proofs.Cell.Acceptance
import CqlClient.Proofs.Session.Closing
import CqlClient.Proofs.Session.Leftovers
import CqlClient.Proofs.Session.Isolation
import CqlClient.Proofs.Session.Looks
import CqlClient.Proofs.Session.Deliveries
import CqlClient.Proofs.Session.Strikes
import CqlClient.Proofs.Query.Segment
import CqlClient.Proofs.Query.Inert
import CqlClient.Proofs.Cell.Canonical
import CqlClient.Proofs.Cell.Distinct
import CqlClient.Proofs.Cell.Inlining
import CqlClient.Proofs.WireType.Grammar
import CqlClient.Proofs.Message.Delimited
import CqlClient.Proofs.Query.Adjacent
import CqlClient.Proofs.Query.Splice
import CqlClient.Proofs.Query.Counters
import CqlClient.Proofs.Value.Congruence
import CqlClient.Proofs.Query.Scan
import CqlClient.Proofs.Query.Places
import CqlClient.Proofs.Query.Outcome
import CqlClient.Proofs.Cell.Rendering
import CqlClient.Proofs.Cell.Unambiguous
import CqlClient.Proofs.Time.Truncation
import CqlClient.Proofs.Query.Substitution
import CqlClient.Proofs.Message.Layout
import CqlClient.Proofs.Message.Extent
import CqlClient.Proofs.Query.Rows
import CqlClient.Proofs.Retry.Loop
import CqlClient.Proofs.Retry.Backoff
import CqlClient.Proofs.InFlight.Search
import CqlClient.Proofs.CommandLine.Loading
import CqlClient.Proofs.CommandLine.Parameter
import CqlClient.Proofs.Message.Nesting
