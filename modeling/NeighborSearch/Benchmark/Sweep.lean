import NeighborSearch.Benchmark.Report
import NeighborSearch.Dataset
import NeighborSearch.Index.Search

/-! Running a benchmark.

For each dimension of the plan, in order, a dataset is made and stored, and then searched
for each number of neighbors, so many times over. The first error ends the whole
benchmark. How long a search took is told by a `Stopwatch`, which cannot change what the
search finds. -/
namespace NeighborSearch.Benchmark

/-- Carries out a search. -/
def carryOut (search : Unit → Outcome (List ResultSet)) : { found // found = search () } :=
  ⟨search (), rfl⟩

/-- How searches are carried out and timed. -/
structure Stopwatch (m : Type → Type) where
  time (search : Unit → Outcome (List ResultSet)) : m ({ found // found = search () } × Duration)

namespace Stopwatch

/-- Under a stopped watch nothing takes any time. -/
def stopped : Stopwatch Id := ⟨fun search => (carryOut search, ⟨0, 0⟩)⟩

end Stopwatch

/-- The smallest number of hits among the results of a batch. -/
def fewestHits (results : List ResultSet) : Nat :=
  (results.map List.length).min?.getD 0

variable {m : Type → Type} [Monad m] (watch : Stopwatch m)

/-- Goes on with what an operation gives, or ends with its error. -/
def attempt {α : Type} (outcome : Outcome α) : ExceptT SearchError m α :=
  ExceptT.mk (pure outcome)

/-- Repeats a search so many times more, after what was found so far. -/
def repeatSearch (index : Index) (queries : List Row) (k : Nat) :
    Nat → TimingLog × Nat → ExceptT SearchError m (TimingLog × Nat)
  | 0, found => return found
  | n + 1, (log, _) => do
    let (found, duration) ← watch.time fun _ => index.search queries k
    let results ← attempt found.val
    repeatSearch index queries k n (log.record duration, fewestHits results)

def measure (plan : Plan) (d : Nat) (index : Index) (queries : List Row) (k : Nat) :
    ExceptT SearchError m Measurement := do
  let (log, hits) ← repeatSearch watch index queries k plan.runs (.forRuns plan.runs, 0)
  return ⟨d, k, hits, log.summary⟩

/-- The index that holds the vectors of a dataset. -/
def indexOf (plan : Plan) (ds : Dataset) : Outcome Index := do
  let index ← Index.create ds.dimension plan.metric (.automatic plan.threads)
  index.add ds.database

def measureDimension (plan : Plan) (d : Nat) : ExceptT SearchError m (List Measurement) := do
  let ds := Dataset.ofSeed d plan.nb plan.nq plan.seed
  let index ← attempt (indexOf plan ds)
  plan.ks.mapM (measure watch plan d index ds.queries)

def run (plan : Plan) : ExceptT SearchError m Report := do
  let measurements ← plan.dims.mapM (measureDimension watch plan)
  return ⟨plan, measurements.flatten⟩

end NeighborSearch.Benchmark
