import NeighborSearch.Neighbor

/-! The order of nearness on single-precision keys.

The same order as in `Neighbor`, found by single-precision arithmetic alone. A score is folded
into a key, of which the smaller one is nearer, and keys are compared by their bit patterns. To
add the positive zero takes the sign off a zero, so that both zeros have one key. -/
namespace NeighborSearch

/-- The order of all bit patterns: zeros and NaNs are told apart by their signs. -/
def comparePatterns (x y : Float32) : Ordering :=
  compare (Binary.single.patternPlace x.toBits.toNat) (Binary.single.patternPlace y.toBits.toNat)

def foldedKey (similarity : Bool) (score : Float32) : Float32 :=
  if score.isNaN then Float32.ofBits 0x7f800000
  else if similarity then -score + 0.0
  else score + 0.0

/-- The smaller key first, and the smaller id first for one key. -/
def Neighbor.compareKeys (similarity : Bool) (a b : Neighbor) : Ordering :=
  (comparePatterns (foldedKey similarity a.score) (foldedKey similarity b.score)).then
    (compare a.id b.id)

end NeighborSearch
