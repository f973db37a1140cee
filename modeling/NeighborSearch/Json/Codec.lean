import NeighborSearch.Benchmark.Report
import NeighborSearch.DenseVector
import NeighborSearch.Json.Number
import NeighborSearch.Json.Parser
import NeighborSearch.Json.Printer
import NeighborSearch.Json.Record
import NeighborSearch.Neighbor

/-! The records of this library in JSON.

Each of them has a `toJson`, which the compact text of a value is made from (`write`), and
an `ofJson?`, by which one is read from a text (`read?`). Where single-precision values are read,
an `ofJsonBy?` takes any reader of numbers. A metric is a name, or an object with that name for
its only key and null for its value. -/
namespace NeighborSearch
open Json

namespace Json

/-- The compact text of a value. -/
def write (value : Json) : String := String.ofList value.compact

/-- The record that a whole text holds. -/
def read? {α : Type} (ofJson? : Json → Option α) (text : String) : Option α :=
  (parse? text.toList).bind ofJson?

end Json

/-! ### Metrics -/

namespace Metric

def toJson (m : Metric) : Json := .text m.name

def ofJson? : Json → Option Metric
  | .string (some name) => ofName? (String.ofList name)
  | .object [(some name, .null)] => ofName? (String.ofList name)
  | _ => none

end Metric

/-! ### Settings -/

namespace Settings

def toJson (s : Settings) : Json := .record [("threads", .ofNat s.threads)]

/-- What is left out has its default. -/
def ofJson? (value : Json) : Option Settings := do
  match ← values? ["threads"] value with
  | [none] => return default
  | [some threads] => return ⟨← nat? threads⟩
  | _ => none

end Settings

/-! ### Neighbors and vectors -/

namespace Neighbor

def toJson (n : Neighbor) : Json :=
  .record [("id", .ofNat n.id), ("distance", .ofSingle n.score)]

def ofJsonBy? (reader : Numeral → Option Float32) (value : Json) : Option Neighbor := do
  match ← values? ["id", "distance"] value with
  | [some id, some distance] => return ⟨← nat? id, ← singleBy? reader distance⟩
  | _ => none

def ofJson? : Json → Option Neighbor := ofJsonBy? Numeral.single?

end Neighbor

namespace DenseVector

def toJson (v : DenseVector) : Json :=
  .record [("data", .array (v.components.map .ofSingle))]

def ofJsonBy? (reader : Numeral → Option Float32) (value : Json) : Option DenseVector := do
  match ← values? ["data"] value with
  | [some data] => return ⟨← list? (singleBy? reader) data⟩
  | _ => none

def ofJson? : Json → Option DenseVector := ofJsonBy? Numeral.single?

end DenseVector

/-! ### Benchmarks -/

namespace TimingSummary

def toJson (s : TimingSummary) : Json :=
  .record [("runs", .ofNat s.runs), ("mean_ms", .ofDouble s.meanMs),
    ("std_ms", .ofDouble s.stdMs), ("p50_ms", .ofDouble s.p50Ms), ("p99_ms", .ofDouble s.p99Ms)]

end TimingSummary

namespace Benchmark

def Plan.toJson (p : Plan) : Json :=
  .record [("dims", .array (p.dims.map .ofNat)), ("nb", .ofNat p.nb), ("nq", .ofNat p.nq),
    ("ks", .array (p.ks.map .ofNat)), ("runs", .ofNat p.runs), ("threads", .ofNat p.threads),
    ("metric", p.metric.toJson), ("seed", .ofNat p.seed.toNat)]

def Plan.names : List String :=
  ["dims", "nb", "nq", "ks", "runs", "threads", "metric", "seed"]

def Plan.ofJson? (value : Json) : Option Plan := do
  match ← values? Plan.names value with
  | [some dims, some nb, some nq, some ks, some runs, some threads, some metric, some seed] =>
    return {
      dims := ← list? nat? dims
      nb := ← nat? nb
      nq := ← nat? nq
      ks := ← list? nat? ks
      runs := ← nat? runs
      threads := ← nat? threads
      metric := ← Metric.ofJson? metric
      seed := UInt64.ofNat (← nat? seed) }
  | _ => none

def Measurement.toJson (m : Measurement) : Json :=
  .record [("d", .ofNat m.d), ("k", .ofNat m.k), ("results_per_query", .ofNat m.resultsPerQuery),
    ("timing", m.timing.toJson)]

def Report.toJson (r : Report) : Json :=
  .record [("config", r.plan.toJson), ("rows", .array (r.measurements.map Measurement.toJson))]

end Benchmark

end NeighborSearch
