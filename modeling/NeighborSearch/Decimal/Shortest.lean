import NeighborSearch.Decimal.Basic

/-! The shortest decimal that reads back.

The numbers that round to a value of a binary format form an interval around it, whose
ends belong to it if the significand is even. `shortest` goes through the decimal grids
from coarse to fine; the first grid with a point in the interval gives the answer, the
point nearest to the value, and of two equally near points the even one. Only the two
points of a grid next to the value have to be looked at: if one of its points lies in
the interval, then so does one of these. -/
namespace NeighborSearch.Decimal
open Binary

/-- The exponent of the first digit of `num / den`. -/
def leadingExponent (num den : Nat) : Int :=
  if den ≤ num then ((toDigits (num / den)).length - 1 : Nat)
  else
    let places := (toDigits (den / num)).length
    if den ≤ num * Nat.pow 10 (places - 1) then -((places - 1 : Nat) : Int) else -(places : Int)

/-- The interval of numbers that round to a value, in units of a quarter of its last
bit, which is `num / den`. -/
structure Interval where
  low : Nat
  value : Nat
  high : Nat
  closed : Bool
  num : Nat
  den : Nat
deriving Repr

/-- Below a power of two the next value is only half as far away as above it. -/
def Interval.around (f : Format) (magnitude : Nat) : Interval :=
  let m := f.significand magnitude
  let quarter := f.exponent magnitude - 2
  let below := if m = Nat.pow 2 f.fractionBits ∧ f.leastExponent < f.exponent magnitude then 1
    else 2
  { low := 4 * m - below, value := 4 * m, high := 4 * m + 2, closed := m % 2 = 0
    num := Nat.pow 2 quarter.toNat, den := Nat.pow 2 (-quarter).toNat }

namespace Interval
variable (i : Interval) (place : Int)

/-- The size of a quarter of the last bit and of one step of the grid `10 ^ place`, both
brought to whole numbers. -/
def unit : Nat := i.num * Nat.pow 10 (-place).toNat

def step : Nat := i.den * Nat.pow 10 place.toNat

def contains (n : Nat) : Bool :=
  let x := n * i.step place
  let low := i.low * i.unit place
  let high := i.high * i.unit place
  if i.closed then low ≤ x && x ≤ high else low < x && x < high

/-- The grid point just at or below the value. -/
def floor : Nat := i.value * i.unit place / i.step place

/-- The point of the grid in the interval that is nearest to the value. -/
def nearest? : Option Nat :=
  let n := i.floor place
  match i.contains place n, i.contains place (n + 1) with
  | false, false => none
  | true, false => some n
  | false, true => some (n + 1)
  | true, true => some (roundDiv .toEven (i.value * i.unit place) (i.step place))

/-- Looks for a point in the interval on ever finer grids. -/
def search : Nat → Int → Decimal
  | 0, place => ⟨i.floor place, place⟩
  | grids + 1, place =>
    match i.nearest? place with
    | some n => ⟨n, place⟩
    | none => search grids (place - 1)

end Interval

/-- The same number without zeros at the end of the coefficient. -/
def trim (d : Decimal) : Decimal :=
  if h : d.coefficient ≠ 0 ∧ d.coefficient % 10 = 0 then
    trim ⟨d.coefficient / 10, d.exponent + 1⟩
  else d
termination_by d.coefficient
decreasing_by exact Nat.div_lt_self (Nat.pos_of_ne_zero h.1) (by decide)

/-- Seventeen digits tell any two values of single or double precision apart. -/
def shortest (f : Format) (magnitude : Nat) : Decimal :=
  let i := Interval.around f magnitude
  trim (i.search 17 (leadingExponent (i.value * i.num) i.den))

end NeighborSearch.Decimal
