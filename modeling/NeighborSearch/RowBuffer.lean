import NeighborSearch.Kernel

/-! Rows of one width in one buffer.

The rows stand one after the other, without gaps, so that a row is found by its offset
alone. `row?` takes any id and gives nothing where the buffer ends before the row does;
`storedRow` is for ids that are known to be in range. -/
namespace NeighborSearch

structure RowBuffer where
  width : Nat
  values : Array Float32
  width_pos : 0 < width
  width_dvd_size : width ∣ values.size

namespace RowBuffer

def empty (width : Nat) (h : 0 < width) : RowBuffer :=
  ⟨width, #[], h, Nat.dvd_zero _⟩

/-- How many rows there are. -/
def size (b : RowBuffer) : Nat := b.values.size / b.width

def isEmpty (b : RowBuffer) : Bool := b.values.isEmpty

/-- The rows in the order of their ids. -/
def rows (b : RowBuffer) : List Row := rowsOf b.width b.values

/-- Appends the values of whole rows. -/
def append (b : RowBuffer) (values : Array Float32) (h : b.width ∣ values.size) : RowBuffer :=
  { b with
    values := b.values ++ values
    width_dvd_size := by rw [Array.size_append]; exact Nat.dvd_add b.width_dvd_size h }

/-! ### Rows by id -/

def storedRow (b : RowBuffer) (id : Nat) : Row := rowAt b.width b.values id

def row? (b : RowBuffer) (id : Nat) : Option Row :=
  if id * b.width + b.width ≤ b.values.size then some (b.storedRow id) else none

end RowBuffer

end NeighborSearch
