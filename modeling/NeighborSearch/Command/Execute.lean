import NeighborSearch.Benchmark.Sweep
import NeighborSearch.Command.Invocation
import NeighborSearch.DenseVector
import NeighborSearch.Json.Codec

/-! Carrying out a command.

A command either prints its whole output and succeeds, or prints nothing but its error.
Command lines that ask for nothing that can be carried out fail with a code of their
own. -/
namespace NeighborSearch.Command

/-- Every line is ended. -/
def joinLines (lines : List String) : String := String.join (lines.map (· ++ "\n"))

structure Completion where
  exitCode : UInt8
  output : String
  /-- Empty unless the command failed. -/
  errors : String
deriving Repr

namespace Completion

def ofLines (lines : List String) : Completion := ⟨0, joinLines lines, ""⟩

def failed (report : String) : Completion := ⟨1, "", "Error: " ++ report ++ "\n"⟩

end Completion

/-! ### Queries -/

namespace Query

/-- Why a query is not answered. -/
inductive Failure where
  /-- A query has at least one component. -/
  | emptyVector
  | search (error : SearchError)
deriving DecidableEq, Repr

def Failure.message : Failure → String
  | emptyVector => "query vector is empty"
  | search error => error.message

/-- The vectors that a query of this dimension is compared with. -/
def database (q : Query) (dimension : Nat) : List Row :=
  (Dataset.ofSeed dimension q.nb 0 q.seed).database

/-- The hits of a query that is read. -/
def hits (q : Query) (vector : DenseVector) : Outcome ResultSet := do
  let index ← Index.create vector.dimension q.metric (.automatic q.threads)
  let index ← index.add (q.database vector.dimension)
  return (← index.search [vector.components] q.k).headD []

/-- Reads the query, and answers it. -/
def answer (q : Query) : Except Failure ResultSet := do
  let vector ← (DenseVector.parse q.text.toList).mapError .search
  if vector.dimension = 0 then .error .emptyVector else (q.hits vector).mapError .search

def hitLine (place : Nat) (n : Neighbor) : String :=
  s!"{place + 1}. id {n.id} (distance: " ++ Decimal.fixedSingle 4 n.score ++ ")"

def lines (hits : ResultSet) : List String :=
  if hits.isEmpty then ["No results found (index is empty)"]
  else s!"Top {hits.length} results:" :: hits.mapIdx hitLine

def execute (q : Query) : Completion :=
  match q.answer with
  | .ok hits => .ofLines (lines hits)
  | .error failure => .failed failure.message

end Query

/-! ### Benchmarks -/

def reportLines (json : Bool) (report : Benchmark.Report) : List String :=
  if json then [String.ofList report.toJson.pretty] else report.tableLines

/-- The error of a benchmark comes with its cause on an indented line. -/
def benchmarkError (e : SearchError) : String :=
  "benchmark failed\n\nCaused by:\n    " ++ e.message

def executeBench {m : Type → Type} [Monad m] (watch : Benchmark.Stopwatch m)
    (plan : Benchmark.Plan) (json : Bool) : m Completion := do
  match ← (Benchmark.run watch plan).run with
  | .ok report => return .ofLines (reportLines json report)
  | .error e => return .failed (benchmarkError e)

/-! ### Command lines -/

def usageLines : List String :=
  ["Exact k-NN search benchmarks over synthetic data",
    "",
    "Usage: neighborsearch [OPTIONS] bench [BENCH OPTIONS]",
    "       neighborsearch [OPTIONS] query <QUERY> [QUERY OPTIONS]",
    "",
    "Options:",
    "  --metric <METRIC>    l2, ip or cosine [default: l2]",
    "  --threads <THREADS>  0 for all cores [default: 1]",
    "  --seed <SEED>        [default: 1234]",
    "  -h, --help",
    "",
    "Bench options:",
    "  --dims <DIMS>        [default: 16,32,64,128]",
    "  --nb <NB>            [default: 10000]",
    "  --nq <NQ>            [default: 100]",
    "  --ks <KS>            [default: 1,10,100]",
    "  --runs <RUNS>        [default: 10]",
    "  --json",
    "",
    "Query options:",
    "  --nb <NB>            [default: 10000]",
    "  -k, --k <K>          [default: 5]"]

def Stop.completion : Stop → Completion
  | .help => ⟨0, joinLines usageLines, ""⟩
  | .usage => ⟨2, "", joinLines usageLines⟩

def execute {m : Type → Type} [Monad m] (watch : Benchmark.Stopwatch m)
    (arguments : List String) : m Completion :=
  match parse arguments with
  | .ok (.query request) => return request.execute
  | .ok (.bench plan json) => executeBench watch plan json
  | .error stop => return stop.completion

end NeighborSearch.Command
