import NeighborSearch.Binary.Format

/-! Rounding of exact quotients.

`roundDiv` takes a quotient to the nearest whole number, `Format.nearest` to the
nearest value of a binary format: both go to the even neighbour when two are equally
near, unless another `Tie` is asked for. -/
namespace NeighborSearch.Binary

/-- Where a quotient goes that lies half-way between two whole numbers. -/
inductive Tie where
  | toEven
  | up
deriving DecidableEq, Repr

def Tie.settle : Tie → Nat → Nat
  | .toEven, q => q + q % 2
  | .up, q => q + 1

def roundDiv (tie : Tie) (num den : Nat) : Nat :=
  let q := num / den
  let r := num % den
  if 2 * r < den then q else if den < 2 * r then q + 1 else tie.settle q

/-- The exponent of the greatest power of two that is at most `num / den`. -/
def floorLog2 (num den : Nat) : Int :=
  let guess := (num.log2 : Int) - den.log2
  if den * Nat.pow 2 guess.toNat ≤ num * Nat.pow 2 (-guess).toNat then guess else guess - 1

/-- The magnitude of the value of the format nearest to `num / den`. -/
def Format.nearest (f : Format) (num den : Nat) : Nat :=
  if num = 0 then 0
  else
    let e := max (floorLog2 num den - f.fractionBits) f.leastExponent
    let m := roundDiv .toEven (num * Nat.pow 2 (-e).toNat) (den * Nat.pow 2 e.toNat)
    min ((e - f.leastExponent).toNat * Nat.pow 2 f.fractionBits + m) f.infinity

/-- Rounds a magnitude of one format to one of another. -/
def Format.convert (source target : Format) (magnitude : Nat) : Nat :=
  let m := source.significand magnitude
  let e := source.exponent magnitude
  target.nearest (m * Nat.pow 2 e.toNat) (Nat.pow 2 (-e).toNat)

/-- The single-precision value nearest to a double, ties to even. -/
def roundToSingle (x : Float) : Float32 :=
  match ofDouble x with
  | .nan => toSingle false (single.infinity + Nat.pow 2 22)
  | .infinite negative => toSingle negative single.infinity
  | .finite negative magnitude => toSingle negative (double.convert single magnitude)

/-- The whole number nearest to a value, a half going up: 0 for what is not positive,
`limit` for what lies above it. -/
def roundToNat (limit : Nat) (x : Float) : Nat :=
  match ofDouble x with
  | .nan | .infinite true | .finite true _ => 0
  | .infinite false => limit
  | .finite false magnitude =>
    let m := double.significand magnitude
    let e := double.exponent magnitude
    min (roundDiv .up (m * Nat.pow 2 e.toNat) (Nat.pow 2 (-e).toNat)) limit

end NeighborSearch.Binary
