import SeriesLoad.Binary64
import SeriesLoad.CommandLine.Command
import SeriesLoad.CommandLine.Flag
import SeriesLoad.CommandLine.Invocation
import SeriesLoad.DataJob
import SeriesLoad.Decimal.Layout
import SeriesLoad.Decimal.Shortest
import SeriesLoad.Encoding
import SeriesLoad.Encoding.Bson
import SeriesLoad.Encoding.LineProtocol
import SeriesLoad.Encoding.PointDocument
import SeriesLoad.Encoding.SeriesRow
import SeriesLoad.Encoding.TagRow
import SeriesLoad.Fault
import SeriesLoad.Format
import SeriesLoad.Host
import SeriesLoad.Json.Basic
import SeriesLoad.Json.Reader
import SeriesLoad.Main
import SeriesLoad.Metric.Cpu
import SeriesLoad.Metric.Distribution
import SeriesLoad.Metric.Machine
import SeriesLoad.Metric.Measurement
import SeriesLoad.Metric.Service
import SeriesLoad.Point
import SeriesLoad.Powers
import SeriesLoad.Profile
import SeriesLoad.Profile.KernelTable
import SeriesLoad.Proofs.Encoding.Documents
import SeriesLoad.Proofs.Query.Bounds
import SeriesLoad.Proofs.Query.Draws
import SeriesLoad.Proofs.Query.Engines
import SeriesLoad.Proofs.Query.Questions
import SeriesLoad.Proofs.Query.Quotes
import SeriesLoad.Proofs.Query.Window
import SeriesLoad.Proofs.Random.Draws
import SeriesLoad.Proofs.Run.Accepted
import SeriesLoad.Proofs.Run.Course
import SeriesLoad.Proofs.Run.Dealing
import SeriesLoad.Proofs.Run.Partition
import SeriesLoad.Proofs.Simulation.Columns
import SeriesLoad.Proofs.Simulation.Schedule
import SeriesLoad.Proofs.Simulation.Stands
import SeriesLoad.Proofs.Table.Output
import SeriesLoad.Proofs.Table.Reader
import SeriesLoad.Proofs.Text.Numerals
import SeriesLoad.Proofs.Text.Plain
import SeriesLoad.Proofs.Time.Arithmetic
import SeriesLoad.Proofs.Time.Calendar
import SeriesLoad.Proofs.Time.Rfc3339
import SeriesLoad.Query.Basic
import SeriesLoad.Query.Catalogue
import SeriesLoad.Query.Engine
import SeriesLoad.Query.LineRequest
import SeriesLoad.Query.Pipeline
import SeriesLoad.Query.Pool
import SeriesLoad.Query.SeriesPlan
import SeriesLoad.Query.SqlStatement
import SeriesLoad.QueryJob
import SeriesLoad.Random.ChaCha
import SeriesLoad.Random.Layers
import SeriesLoad.Random.Normal
import SeriesLoad.Random.Sample
import SeriesLoad.Random.Uniform
import SeriesLoad.Random.Words
import SeriesLoad.Run
import SeriesLoad.Schema
import SeriesLoad.Settings
import SeriesLoad.Simulation
import SeriesLoad.Sink
import SeriesLoad.Text.Blank
import SeriesLoad.Text.Digits
import SeriesLoad.Text.Extender
import SeriesLoad.Text.Integer
import SeriesLoad.Text.Printable
import SeriesLoad.Text.Quoted
import SeriesLoad.Text.Terminal
import SeriesLoad.Text.Utf8
import SeriesLoad.Time.Calendar
import SeriesLoad.Time.Instant
import SeriesLoad.Time.Interval
import SeriesLoad.Time.Rfc3339
import SeriesLoad.Time.Span
import SeriesLoad.Time.SpanText
import SeriesLoad.Value
import SeriesLoad.Value.Json
import SeriesLoad.Proofs.Simulation.Growth
import SeriesLoad.Proofs.Simulation.Stream
import SeriesLoad.Proofs.Query.Recycling
import SeriesLoad.Proofs.Run.Lockstep
import SeriesLoad.Proofs.Run.Horizon
import SeriesLoad.Proofs.Run.Limited
import SeriesLoad.Proofs.Text.Utf8
import SeriesLoad.Proofs.Encoding.DocumentReader
import SeriesLoad.Proofs.Encoding.DocumentOutput
import SeriesLoad.Proofs.Line.Output
import SeriesLoad.Proofs.Json.Reader
import SeriesLoad.Proofs.Query.Documents
import SeriesLoad.Proofs.Query.Output
import SeriesLoad.Proofs.Random.Samples
import SeriesLoad.Proofs.Query.Names
import SeriesLoad.Proofs.Query.Hosts
import SeriesLoad.Proofs.Run.Coverage
import SeriesLoad.Proofs.Run.Interrupted
import SeriesLoad.Proofs.Query.Losses
import SeriesLoad.Proofs.Query.Ledger
import SeriesLoad.Proofs.Encoding.Stamps
import SeriesLoad.Proofs.Run.Cadence
import SeriesLoad.Proofs.Encoding.Refusals
import SeriesLoad.Proofs.Series.Output
import SeriesLoad.Proofs.Run.Counts
import SeriesLoad.Proofs.Query.Selecting
import SeriesLoad.Proofs.Simulation.LargerStart
import SeriesLoad.Proofs.Run.SharedBuffer
import SeriesLoad.Proofs.Query.Nesting
import SeriesLoad.Proofs.Query.CutOff
import SeriesLoad.Proofs.Time.SpanText
import SeriesLoad.Proofs.Run.Statistics
import SeriesLoad.Proofs.Query.InPlace
import SeriesLoad.Proofs.Simulation.Within
import SeriesLoad.Proofs.Time.Saturation
import SeriesLoad.Proofs.Point
import SeriesLoad.Proofs.Table.Preamble
import SeriesLoad.Proofs.Decimal.Shortest
import SeriesLoad.Proofs.Double.Rounding
import SeriesLoad.Proofs.Double.Bits
import SeriesLoad.Proofs.Double.Arithmetic
import SeriesLoad.Proofs.Json.Numerals
import SeriesLoad.Proofs.Json.Scaling
import SeriesLoad.Proofs.Value.Json
import SeriesLoad.Proofs.Line.Words
