import NeighborSearch.Index.Basic

/-! What a benchmark measures: every dimension with every number of neighbors. -/
namespace NeighborSearch.Benchmark

structure Plan where
  /-- The dimensions of the datasets. -/
  dims : List Nat
  /-- How many vectors the index holds. -/
  nb : Nat
  /-- How many queries a batch has. -/
  nq : Nat
  /-- How many neighbors are searched for. -/
  ks : List Nat
  /-- How often each search is repeated. -/
  runs : Nat
  /-- Zero for all cores. -/
  threads : Nat
  metric : Metric
  seed : UInt64
deriving DecidableEq, Repr

instance : Inhabited Plan where
  default :=
    { dims := [16, 32, 64, 128], nb := 10000, nq := 100, ks := [1, 10, 100], runs := 10
      threads := 1, metric := .l2, seed := 1234 }

end NeighborSearch.Benchmark
