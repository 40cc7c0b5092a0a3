import OpcPubSub.Decoding.Messages
import OpcPubSub.Encoding.Script
import OpcPubSub.Main
import OpcPubSub.Publisher.Loop
import OpcPubSub.Publisher.Ops
import OpcPubSub.Proofs.Encoding.Document
import OpcPubSub.Proofs.Encoding.WritesDocument
import OpcPubSub.Proofs.Encoding.Builder
import OpcPubSub.Proofs.Encoding.Refinement
import OpcPubSub.Proofs.Guid
import OpcPubSub.Proofs.Text.Base64
import OpcPubSub.Proofs.Time.Calendar
import OpcPubSub.Proofs.Json.ReadBack
import OpcPubSub.Proofs.Time.DateTime
import OpcPubSub.Proofs.Time.Ticks
import OpcPubSub.Proofs.Decoding.Values
import OpcPubSub.Proofs.Message.Visible
import OpcPubSub.Proofs.Message.Noninterference
import OpcPubSub.Proofs.Decoding.Messages
import OpcPubSub.Proofs.Message.RoundTrip
import OpcPubSub.Proofs.Message.Reencoding
import OpcPubSub.Proofs.Decoding.Accepted
import OpcPubSub.Proofs.Decoding.SwitchedOff
import OpcPubSub.Proofs.Publisher.Sequence
import OpcPubSub.Proofs.Metrics.Series
import OpcPubSub.Proofs.Publisher.Accounting
import OpcPubSub.Proofs.Config.Valid
import OpcPubSub.Proofs.Json.Repetition
import OpcPubSub.Proofs.Json.Reordering
import OpcPubSub.Proofs.Decoding.MemberOrder
import OpcPubSub.Proofs.Publisher.Simulation
import OpcPubSub.Proofs.Publisher.Fleet
import OpcPubSub.Publisher.Carrier
import OpcPubSub.Proofs.Publisher.Shutdown
import OpcPubSub.Proofs.Number.Rounding
import OpcPubSub.Proofs.Number.Arithmetic
import OpcPubSub.Proofs.Number.Shortest
import OpcPubSub.Proofs.Json.FloatText
import OpcPubSub.Proofs.Json.Scaling
import OpcPubSub.Proofs.Json.Floats
import OpcPubSub.Proofs.Decoding.Doubles
import OpcPubSub.Proofs.Decoding.BareArrays
import OpcPubSub.Proofs.Decoding.Refusals
import OpcPubSub.Proofs.Json.Legible
import OpcPubSub.Proofs.Decoding.Integers
import OpcPubSub.Proofs.Encoding.Poison
import OpcPubSub.Proofs.Encoding.Balance
import OpcPubSub.Proofs.Encoding.History
import OpcPubSub.Proofs.Encoding.OneValue
import OpcPubSub.Proofs.Config.Proper
import OpcPubSub.Proofs.Publisher.Compiled
import OpcPubSub.Proofs.Metrics.Exposition
import OpcPubSub.Proofs.Metrics.Histograms
import OpcPubSub.Proofs.Metrics.Report
import OpcPubSub.Proofs.Metrics.Totals
