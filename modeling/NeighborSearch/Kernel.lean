/-! Sums over pairs of components, and what is built on them.

`laneSum` adds one term per pair of components in a fixed order: four running sums take
turns over the leading groups of four, a tail of at most three terms is added up by
itself, and the five parts are added last. Every rounding is fixed by that order, so
equal inputs give equal bits wherever a score is computed. -/
namespace NeighborSearch

/-- A value for each component of a vector. -/
abbrev Row := List Float32

namespace Kernel

/-- Four running sums. -/
structure Lanes where
  first : Float32
  second : Float32
  third : Float32
  fourth : Float32

namespace Lanes

def zero : Lanes := ⟨0.0, 0.0, 0.0, 0.0⟩

def add (l : Lanes) (a b c d : Float32) : Lanes :=
  ⟨l.first + a, l.second + b, l.third + c, l.fourth + d⟩

def total (l : Lanes) : Float32 :=
  (l.first + l.second) + (l.third + l.fourth)

end Lanes

/-- Adds from left to right. The start is the neutral element of rounded addition, which
is the negative zero. -/
def sum (xs : Row) : Float32 :=
  xs.foldl (· + ·) (-0.0)

def laneSumFrom (term : Float32 → Float32 → Float32) (l : Lanes) : Row → Row → Float32
  | a₀ :: a₁ :: a₂ :: a₃ :: as, b₀ :: b₁ :: b₂ :: b₃ :: bs =>
    laneSumFrom term (l.add (term a₀ b₀) (term a₁ b₁) (term a₂ b₂) (term a₃ b₃)) as bs
  | as, bs => l.total + sum (List.zipWith term as bs)

def laneSum (term : Float32 → Float32 → Float32) (a b : Row) : Float32 :=
  laneSumFrom term .zero a b

def squaredDifference (x y : Float32) : Float32 := (x - y) * (x - y)

end Kernel

open Kernel

/-- The square of the Euclidean distance, from the differences of the components: nearly
equal rows come out near zero, without the cancellation of sums of squares. -/
def squaredDistance (a b : Row) : Float32 := laneSum squaredDifference a b

def innerProduct (a b : Row) : Float32 := laneSum (· * ·) a b

def squaredNorm (a : Row) : Float32 := innerProduct a a

def norm (a : Row) : Float32 := (squaredNorm a).sqrt

/-- The row times the inverse of its norm; a row without a positive norm stays as it is. -/
def unitRow (row : Row) : Row :=
  let n := norm row
  if 0.0 < n then
    let inverse := 1.0 / n
    row.map (· * inverse)
  else row

theorem length_unitRow (row : Row) : (unitRow row).length = row.length := by
  simp only [unitRow]
  split <;> simp

/-! ### Buffers of rows -/

/-- The row at a place of a buffer that holds rows of one width, one after the other. -/
def rowAt (width : Nat) (values : Array Float32) (i : Nat) : Row :=
  (values.extract (i * width) (i * width + width)).toList

/-- All full rows of a buffer; what is left over behind them is no row. -/
def rowsOf (width : Nat) (values : Array Float32) : List Row :=
  (List.range (values.size / width)).map (rowAt width values)

theorem length_of_mem_rowsOf {width : Nat} {values : Array Float32} {row : Row}
    (h : row ∈ rowsOf width values) : row.length = width := by
  simp only [rowsOf, rowAt, List.mem_map, List.mem_range] at h
  obtain ⟨n, hn, rfl⟩ := h
  have : (n + 1) * width ≤ values.size :=
    Nat.le_trans (Nat.mul_le_mul_right _ hn) (Nat.div_mul_le_self _ _)
  rw [Nat.add_mul, Nat.one_mul] at this
  simp only [Array.length_toList, Array.size_extract]
  omega

/-- Rows of one width fill a whole number of rows of a buffer. -/
theorem dvd_length_flatten {width : Nat} {rows : List Row}
    (h : ∀ row ∈ rows, row.length = width) : width ∣ rows.flatten.length := by
  induction rows with
  | nil => simp
  | cons row rest ih =>
    rw [List.flatten_cons, List.length_append, h row (List.mem_cons_self ..)]
    exact Nat.dvd_add (Nat.dvd_refl _) (ih fun r hr => h r (List.mem_cons_of_mem _ hr))

/-- The buffer with its full rows made unit rows. No buffer has rows of width 0. -/
def normalizedRows? (width : Nat) (values : Array Float32) : Option (Array Float32) :=
  if width = 0 then none
  else
    let rows := (rowsOf width values).map unitRow
    some (rows.flatten.toArray ++ values.extract (rows.length * width) values.size)

/-- The squared distances of every row of one buffer to every row of another, those of
the first row first. No buffer has rows of width 0. -/
def pairwiseSquaredDistances? (xs ys : Array Float32) (width : Nat) : Option (List Float32) :=
  if width = 0 then none
  else some ((rowsOf width xs).flatMap fun x => (rowsOf width ys).map (squaredDistance x))

end NeighborSearch
