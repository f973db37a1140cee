import NeighborSearch.Command.Execute

/-! The command line program: searches are timed by the clock, what a command prints goes
to the standard streams, and its code is what the program exits with. -/
namespace NeighborSearch

/-- The time between two readings of a clock that counts nanoseconds. -/
def Duration.between (start stop : Nat) : Duration :=
  let elapsed := stop - start
  ⟨UInt64.ofNat (elapsed / 1000000000), UInt32.ofNat (elapsed % 1000000000)⟩

def clock : Benchmark.Stopwatch IO where
  time search := do
    let start ← IO.monoNanosNow
    let found ← IO.lazyPure fun _ => Benchmark.carryOut search
    let stop ← IO.monoNanosNow
    return (found, .between start stop)

end NeighborSearch

open NeighborSearch in
def main (arguments : List String) : IO UInt32 := do
  let completion ← Command.execute clock arguments
  (← IO.getStdout).putStr completion.output
  (← IO.getStderr).putStr completion.errors
  return completion.exitCode.toUInt32
