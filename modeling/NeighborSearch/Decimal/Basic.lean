import NeighborSearch.Binary.Rounding

/-! Decimal numbers and their digits.

A `Decimal` is `coefficient * 10 ^ exponent`, without sign. `nearest` gives the value
of a binary format nearest to it, in exact arithmetic and so with one rounding. -/
namespace NeighborSearch

structure Decimal where
  coefficient : Nat
  exponent : Int
deriving DecidableEq, Repr

namespace Decimal

abbrev Digit := Fin 10

def Digit.zero : Digit := ⟨0, by decide⟩

def Digit.toChar (d : Digit) : Char :=
  Char.ofNat ('0'.toNat + d.val)

def Digit.ofChar? (c : Char) : Option Digit :=
  if h : '0'.toNat ≤ c.toNat ∧ c.toNat ≤ '9'.toNat then
    some ⟨c.toNat - '0'.toNat, by have := h.1; have := h.2; simp only [Char.reduceToNat] at *; omega⟩
  else none

/-- The number that digits spell, the first one being the greatest. -/
def ofDigits (digits : List Digit) : Nat :=
  digits.foldl (fun n d => 10 * n + d.val) 0

/-- The digits of a number, without leading zeros; zero has one digit. -/
def toDigits (n : Nat) : List Digit :=
  go n []
where
  go (n : Nat) (tail : List Digit) : List Digit :=
    let digit : Digit := ⟨n % 10, Nat.mod_lt _ (by decide)⟩
    if n < 10 then digit :: tail else go (n / 10) (digit :: tail)
  termination_by n
  decreasing_by omega

/-- The leading digits of some text, and what follows them. -/
def spanDigits : List Char → List Digit × List Char
  | [] => ([], [])
  | c :: cs =>
    match Digit.ofChar? c with
    | none => ([], c :: cs)
    | some d => let (ds, rest) := spanDigits cs; (d :: ds, rest)

/-- No value of single or double precision reaches `10 ^ reach`, or lies above zero and
below `10 ^ -reach`. -/
def reach : Nat := 400

/-- The magnitude of the nearest value. Decimals beyond the reach of either precision
are settled by their exponent alone, so that no power of ten is built for them. -/
def nearest (f : Binary.Format) (d : Decimal) : Nat :=
  if d.coefficient = 0 then 0
  else if reach < d.exponent then f.infinity
  else if d.exponent < -((reach + d.coefficient.log2 + 1 : Nat) : Int) then 0
  else f.nearest (d.coefficient * Nat.pow 10 d.exponent.toNat) (Nat.pow 10 (-d.exponent).toNat)

end Decimal

end NeighborSearch
