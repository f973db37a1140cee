import NeighborSearch.Main
import NeighborSearch.RowBuffer.Words
import NeighborSearch.Session
import NeighborSearch.Proofs.Binary.Ordinal
import NeighborSearch.Proofs.Nearness
import NeighborSearch.Proofs.Selection
import NeighborSearch.Proofs.Interrupt
import NeighborSearch.Proofs.Index.Rows
import NeighborSearch.Proofs.Session.AppendOnly
import NeighborSearch.Proofs.Index.Search
import NeighborSearch.Proofs.Index.Watch
import NeighborSearch.Proofs.Session.Interruption
import NeighborSearch.Proofs.Session.UnitRows
import NeighborSearch.Proofs.Text.Pieces
import NeighborSearch.Proofs.Text.Lines
import NeighborSearch.Proofs.DenseVector
import NeighborSearch.Proofs.Index.NotANumber
import NeighborSearch.Proofs.Benchmark.Sweep
import NeighborSearch.Proofs.Benchmark.Matrix
import NeighborSearch.Proofs.Benchmark.Numbers
import NeighborSearch.Proofs.Benchmark.Outcome
import NeighborSearch.Proofs.Binary.Arithmetic
import NeighborSearch.Proofs.Binary.Double
import NeighborSearch.Proofs.Binary.DoubleOrder
import NeighborSearch.Proofs.Binary.Sign
import NeighborSearch.Proofs.Decimal.Digits
import NeighborSearch.Proofs.Decimal.DoubleRounding
import NeighborSearch.Proofs.Decimal.Fixed
import NeighborSearch.Proofs.Decimal.Literal
import NeighborSearch.Proofs.Index.SelfMatch
import NeighborSearch.Proofs.Json.Number
import NeighborSearch.Proofs.Json.ReadBack
import NeighborSearch.Proofs.Json.Roundtrip
import NeighborSearch.Proofs.FirstFault
import NeighborSearch.Proofs.Session.Refusals
import NeighborSearch.Proofs.Interrupt.History
import NeighborSearch.Proofs.Session.Handles
import NeighborSearch.Proofs.Command.Query
import NeighborSearch.Proofs.Session.Batches
import NeighborSearch.Proofs.TopK
import NeighborSearch.Proofs.Json.Grammar
import NeighborSearch.Proofs.Json.Reader
import NeighborSearch.Proofs.Json.Record
import NeighborSearch.Proofs.Binary.SumAndRoot
import NeighborSearch.Proofs.Binary.Single
import NeighborSearch.Proofs.RoundedSum
import NeighborSearch.Proofs.UnitRow
import NeighborSearch.Proofs.Normalization
import NeighborSearch.Proofs.Binary.SignedSum
import NeighborSearch.Proofs.Binary.Bounded
import NeighborSearch.Proofs.Binary.Scaling
import NeighborSearch.Proofs.IntegerSum
import NeighborSearch.Proofs.Metric
import NeighborSearch.Proofs.Pairwise
import NeighborSearch.Proofs.Timing.Statistics
import NeighborSearch.Proofs.Timing.Percentile
import NeighborSearch.Proofs.Benchmark.Table
import NeighborSearch.Neighbor.Key
import NeighborSearch.Proofs.Binary.ExactValue
import NeighborSearch.Proofs.Neighbor.Key
import NeighborSearch.Proofs.RowBuffer.Words
import NeighborSearch.Dataset.Words
import NeighborSearch.Proofs.Dataset.Bounds
