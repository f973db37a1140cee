import NeighborSearch.Binary.Format

/-! Neighbors and their order.

A neighbor is an id with its score. `rankOf` places a score on a line of whole numbers on
which the nearer one comes first: both zeros have one place, and a NaN has that of the
worst infinity. Ids settle ties, so that `Neighbor.before` compares pairs of whole
numbers and is a total order of ranks and ids. -/
namespace NeighborSearch

structure Neighbor where
  id : Nat
  score : Float32
deriving BEq, Repr

/-- Hits of one query, the nearest one first. -/
abbrev ResultSet := List Neighbor

/-- The place of a score in the order of nearness. -/
def rankOf (similarity : Bool) (score : Float32) : Int :=
  match Binary.single.ordinal? (Binary.ofSingle score) with
  | none => Binary.single.infinity
  | some place => if similarity then -place else place

/-- A neighbor and its rank. -/
structure Ranked where
  rank : Int
  neighbor : Neighbor

namespace Ranked

def of (similarity : Bool) (n : Neighbor) : Ranked :=
  ⟨rankOf similarity n.score, n⟩

/-- Smaller rank, or the same rank and a smaller id. -/
def before (a b : Ranked) : Bool :=
  a.rank < b.rank || a.rank == b.rank && a.neighbor.id < b.neighbor.id

/-- No later than the other one. -/
def notAfter (a b : Ranked) : Bool := !b.before a

end Ranked

/-- Sorts neighbors, the nearest one first and smaller ids first among equally near ones. -/
def nearestFirst (similarity : Bool) (hits : List Neighbor) : ResultSet :=
  ((hits.map (Ranked.of similarity)).mergeSort Ranked.notAfter).map Ranked.neighbor

end NeighborSearch
