import NeighborSearch.Decimal.Basic

/-! Multiples of powers of ten in double-precision arithmetic.

`scale?` carries a value over by powers of ten, one rounded operation for each of them: a
product for a positive exponent, quotients for a negative one. The powers are the doubles
nearest to them, up to the last one that is finite. The result is therefore near the exact
multiple, but need not be the nearest double; a result beyond all doubles is none. -/
namespace NeighborSearch.Decimal

/-- No greater power of ten is finite. -/
def greatestPower : Nat := 308

def powerOfTen (n : Nat) : Float :=
  Binary.toDouble false (nearest Binary.double ⟨1, n⟩)

/-- The product with a power of ten, unless it is infinite. -/
def scaleUp? (x : Float) (n : Nat) : Option Float :=
  let product := x * powerOfTen n
  if n ≤ greatestPower then if product.isInf then none else some product
  else if x == 0.0 then some x
  else none

/-- The quotient by a power of ten, in steps of the greatest one. Nothing is left to divide
once a quotient is zero. -/
def scaleDown (x : Float) (n : Nat) : Float :=
  if n ≤ greatestPower then x / powerOfTen n
  else if x == 0.0 then x
  else scaleDown (x / powerOfTen greatestPower) (n - greatestPower)
termination_by n
decreasing_by simp only [greatestPower] at *; omega

def scale? (x : Float) (exponent : Int) : Option Float :=
  if 0 ≤ exponent then scaleUp? x exponent.toNat else some (scaleDown x (-exponent).toNat)

end NeighborSearch.Decimal
