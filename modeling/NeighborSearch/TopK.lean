import NeighborSearch.Neighbor

/-! Selection of the nearest neighbors among a stream of them.

What is kept stands in a list, the worst one first. While there are free places every
candidate is taken in; after that one is taken in only if it stands before the worst one
kept, which makes room for it. -/
namespace NeighborSearch

structure TopK where
  similarity : Bool
  /-- How many more can be taken in without giving one up. -/
  free : Nat
  /-- The worst one first. -/
  kept : List Ranked

namespace TopK

def new (k : Nat) (similarity : Bool) : TopK := ⟨similarity, k, []⟩

/-- Puts a candidate in its place among those kept. -/
def insertRanked (candidate : Ranked) : List Ranked → List Ranked
  | [] => [candidate]
  | r :: rest => if candidate.before r then r :: insertRanked candidate rest
    else candidate :: r :: rest

def pushRanked (top : TopK) (candidate : Ranked) : TopK :=
  match top.free, top.kept with
  | free + 1, kept => { top with free, kept := insertRanked candidate kept }
  | 0, [] => top
  | 0, worst :: rest =>
    if candidate.before worst then { top with kept := insertRanked candidate rest } else top

def push (top : TopK) (n : Neighbor) : TopK :=
  top.pushRanked (.of top.similarity n)

def size (top : TopK) : Nat := top.kept.length

def isEmpty (top : TopK) : Bool := top.kept.isEmpty

/-- What is kept, the nearest one first. -/
def toResultSet (top : TopK) : ResultSet := (top.kept.map Ranked.neighbor).reverse

/-- The nearest `k` of some neighbors. -/
def select (k : Nat) (similarity : Bool) (candidates : List Neighbor) : ResultSet :=
  (candidates.foldl push (new k similarity)).toResultSet

end TopK

end NeighborSearch
