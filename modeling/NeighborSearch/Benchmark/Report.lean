import NeighborSearch.Benchmark.Plan
import NeighborSearch.Decimal.Fixed
import NeighborSearch.Timing

/-! What a benchmark found, and its table.

The measurements stand in the order in which they were made. The table lists them under a
heading for each dimension, and ends with the matrix of mean times: a line for each
dimension of the plan with what was measured for it. -/
namespace NeighborSearch.Benchmark

structure Measurement where
  d : Nat
  k : Nat
  /-- The smallest number of hits that a query had. -/
  resultsPerQuery : Nat
  timing : TimingSummary

structure Report where
  plan : Plan
  measurements : List Measurement

namespace Report

/-- For each dimension of the plan, the mean times measured for it. -/
def meanMatrix (r : Report) : List (List Float) :=
  r.plan.dims.map fun d => (r.measurements.filter fun m => m.d = d).map (·.timing.meanMs)

/-! ### The table -/

def heading (d : Nat) : String := s!"========== d= {d}"

/-- A number set to the right in so many columns. -/
def rightAligned (columns n : Nat) : String :=
  let digits := Decimal.digitString (Decimal.toDigits n)
  "".pushn ' ' (columns - digits.length) ++ digits

def measurementLine (m : Measurement) : String :=
  "search k=" ++ rightAligned 3 m.k ++ " t=" ++ Decimal.fixedDouble 3 m.timing.meanMs ++
    " ms (± " ++ Decimal.fixedDouble 4 m.timing.stdMs ++ ")"

/-- A line for each measurement, under a heading where the dimension changes. -/
def measurementLines (current : Option Nat) : List Measurement → List String
  | [] => []
  | m :: rest =>
    (if current = some m.d then [] else [heading m.d]) ++
      measurementLine m :: measurementLines (some m.d) rest

def matrixLine (means : List Float) : String :=
  "\t".intercalate (means.map (Decimal.fixedDouble 4))

def tableLines (r : Report) : List String :=
  measurementLines none r.measurements ++ "restab=" :: r.meanMatrix.map matrixLine

end Report

end NeighborSearch.Benchmark
