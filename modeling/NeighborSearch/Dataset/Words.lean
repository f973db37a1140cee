import NeighborSearch.Dataset
import NeighborSearch.RowBuffer.Words

/-! Samples of synthetic vectors by offsets in words.

The same samples as in `Dataset`, found by calculating with 64-bit words alone: the entry of the
projection for a latent coordinate and a component stands as many rows behind the first one as there
are coordinates before it. There is no sample where an offset is no word any more, or lies behind
the end. -/
namespace NeighborSearch.Dataset.Embedding
open RowBuffer (mulWords? addWords?)

variable {d : Nat} (e : Embedding d)

def wordLookup? (i j : UInt64) : Option Float32 := do
  let start ← mulWords? i (UInt64.ofNat d)
  let place ← addWords? start j
  e.projection[place.toNat]?

def wordProject? (latent : Vector Float32 latentDimension) (j : UInt64) : Option Float32 :=
  (List.finRange latentDimension).foldlM (fun sum (i : Fin latentDimension) => do
    let entry ← e.wordLookup? (UInt64.ofNat i) j
    return sum + latent.get i * entry) (-0.0)

def wordScaled? (latent : Vector Float32 latentDimension) (j : UInt64) : Option Float32 := do
  let x ← e.wordProject? latent j
  let scale ← e.scales[j.toNat]?
  return x * scale

def wordApply? (sine : Float32 → Float32) (latent : Vector Float32 latentDimension) : Option Row :=
  (List.finRange d).mapM fun (j : Fin d) => do
    let x ← e.wordScaled? latent (UInt64.ofNat j)
    return sine x

end NeighborSearch.Dataset.Embedding
