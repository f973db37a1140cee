import NeighborSearch.Binary.Rounding

/-! Statistics of measured times.

A log takes in durations, discards the first ones as warm-up and keeps the others in
milliseconds. Without samples every statistic is zero. A percentile is one of the
samples: the one whose place in ascending order is nearest to that share of the way from
the first one to the last one. -/
namespace NeighborSearch

structure Duration where
  seconds : UInt64
  /-- The part of a second. -/
  nanoseconds : UInt32
deriving DecidableEq, Repr

namespace Duration

def inSeconds (d : Duration) : Float :=
  d.seconds.toFloat + d.nanoseconds.toFloat / 1000000000.0

def inMilliseconds (d : Duration) : Float := d.inSeconds * 1000.0

end Duration

structure TimingSummary where
  runs : Nat
  meanMs : Float
  stdMs : Float
  p50Ms : Float
  p99Ms : Float

structure TimingLog where
  /-- How many durations are still to be discarded. -/
  warmup : Nat
  samples : Array Float

namespace TimingLog

def new (warmup : Nat) : TimingLog := ⟨warmup, #[]⟩

/-- A log for so many runs, a fifth of which are warm-up. -/
def forRuns (runs : Nat) : TimingLog := new (runs / 5)

def record (log : TimingLog) (d : Duration) : TimingLog :=
  match log.warmup with
  | warmup + 1 => { log with warmup }
  | 0 => { log with samples := log.samples.push d.inMilliseconds }

def size (log : TimingLog) : Nat := log.samples.size

def isEmpty (log : TimingLog) : Bool := log.samples.isEmpty

/-- Adds from left to right, starting at the neutral element of rounded addition. -/
def sum (xs : List Float) : Float := xs.foldl (· + ·) (-0.0)

def meanOf (xs : List Float) : Float :=
  if xs.isEmpty then 0.0 else sum xs / Float.ofNat xs.length

def meanMs (log : TimingLog) : Float := meanOf log.samples.toList

def stdMs (log : TimingLog) : Float :=
  let mean := log.meanMs
  (meanOf (log.samples.toList.map fun x => (x - mean) * (x - mean))).sqrt

/-- Ascending, also where two samples differ in nothing but the sign of a zero. -/
def notAbove (x y : Float) : Bool :=
  Binary.double.patternPlace x.toBits.toNat ≤ Binary.double.patternPlace y.toBits.toNat

def sorted (log : TimingLog) : List Float := log.samples.toList.mergeSort notAbove

/-- The place of a percentile among so many samples in ascending order. -/
def percentilePlace (size : Nat) (percentile : Float) : Nat :=
  Binary.roundToNat (size - 1) (percentile / 100.0 * Float.ofNat (size - 1))

def percentileMs (log : TimingLog) (percentile : Float) : Float :=
  log.sorted.getD (percentilePlace log.size percentile) 0.0

def summary (log : TimingLog) : TimingSummary where
  runs := log.size
  meanMs := log.meanMs
  stdMs := log.stdMs
  p50Ms := log.percentileMs 50.0
  p99Ms := log.percentileMs 99.0

end TimingLog

end NeighborSearch
