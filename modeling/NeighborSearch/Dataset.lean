import NeighborSearch.Kernel
import NeighborSearch.Random.ChaCha

/-! Synthetic vectors of low intrinsic dimension.

A vector comes from a point of a small latent space, carried over by a random projection,
scaled component by component, and passed through the sine. Projection and scales are
drawn first, then one latent point for each vector, those of the database before those
of the queries: both are one sequence of samples, cut in two. -/
namespace NeighborSearch
open NeighborSearch.Random

structure Dataset where
  dimension : Nat
  database : List Row
  queries : List Row

namespace Dataset

def latentDimension : Nat := 10

/-- How latent points become vectors. The projection has one row of `d` entries for each
latent coordinate. -/
structure Embedding (d : Nat) where
  projection : Vector Float32 (latentDimension * d)
  scales : Vector Float32 d

theorem entry_lt {d : Nat} (i : Fin latentDimension) (j : Fin d) :
    i.val * d + j.val < latentDimension * d :=
  Nat.lt_of_lt_of_le (Nat.add_lt_add_left j.isLt _)
    (by rw [← Nat.succ_mul]; exact Nat.mul_le_mul_right _ i.isLt)

namespace Embedding
variable {d : Nat} (e : Embedding d)

def entry (i : Fin latentDimension) (j : Fin d) : Float32 :=
  e.projection.get ⟨i.val * d + j.val, entry_lt i j⟩

/-- The projection of a latent point to one component, added up from the left. -/
def project (latent : Vector Float32 latentDimension) (j : Fin d) : Float32 :=
  Fin.foldl latentDimension (fun sum i => sum + latent.get i * e.entry i j) (-0.0)

def scaled (latent : Vector Float32 latentDimension) (j : Fin d) : Float32 :=
  e.project latent j * e.scales.get j

def apply (sine : Float32 → Float32) (latent : Vector Float32 latentDimension) : Row :=
  List.ofFn fun j => sine (e.scaled latent j)

end Embedding

variable {σ : Type} (source : Source σ)

/-- A scale between 0.1 and 4.1. -/
def drawScale (s : σ) : Float32 × σ :=
  let (x, s) := source.unit s
  (x * 4.0 + 0.1, s)

def drawEmbedding (d : Nat) (s : σ) : Embedding d × σ :=
  let (projection, s) := drawVector source.unit (latentDimension * d) s
  let (scales, s) := drawVector (drawScale source) d s
  (⟨projection, scales⟩, s)

def drawSample (sine : Float32 → Float32) {d : Nat} (e : Embedding d) (s : σ) : Row × σ :=
  let (latent, s) := drawVector source.symmetric latentDimension s
  (e.apply sine latent, s)

/-- Draws `nb` vectors for the database and then `nq` queries. -/
def generate (sine : Float32 → Float32) (d nb nq : Nat) (s : σ) : Dataset :=
  let (e, s) := drawEmbedding source d s
  let (database, s) := drawList (drawSample source sine e) nb s
  let (queries, _) := drawList (drawSample source sine e) nq s
  ⟨d, database, queries⟩

/-- The dataset of a seed. -/
def ofSeed (d nb nq : Nat) (seed : UInt64) : Dataset :=
  generate ChaCha.source Float32.sin d nb nq (.ofSeed seed)

def describe (ds : Dataset) : String :=
  s!"SyntheticDataset(d={ds.dimension}, nb={ds.database.length}, nq={ds.queries.length})"

end Dataset

end NeighborSearch
