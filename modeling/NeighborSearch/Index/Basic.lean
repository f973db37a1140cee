import NeighborSearch.Error
import NeighborSearch.Metric
import NeighborSearch.RowBuffer

/-! The index: rows in the order they were added.

Adding is all or nothing. Rows given one by one are refused together if one of them has
another length than the rows of the index; a flat buffer is refused if it ends in the
middle of a row. Under a metric that normalizes, the added rows, and only these, are made
unit rows as they are stored. -/
namespace NeighborSearch

/-- How many threads share the queries of a batch; every query is answered alike on any
of them. -/
inductive Threads where
  | allCores
  | count (n : Nat)
deriving DecidableEq, Repr

namespace Threads

instance : Inhabited Threads := ⟨count 1⟩

/-- Zero stands for all cores. -/
def automatic (n : Nat) : Threads := if n = 0 then allCores else count n

def validate : Threads → Outcome Unit
  | count 0 => .error (.invalidThreadCount 0)
  | allCores | count _ => .ok ()

end Threads

/-- What an index can be set up with. -/
structure Settings where
  threads : Nat
deriving DecidableEq, Repr

namespace Settings

instance : Inhabited Settings := ⟨⟨1⟩⟩

def validate (s : Settings) : Outcome Unit := (Threads.count s.threads).validate

end Settings

structure Index where
  metric : Metric
  threads : Threads
  buffer : RowBuffer

namespace Index

def create (dimension : Nat) (metric : Metric) (threads : Threads) : Outcome Index :=
  if h : 0 < dimension then do
    threads.validate
    return ⟨metric, threads, .empty dimension h⟩
  else .error (.invalidDimension dimension)

def dimension (i : Index) : Nat := i.buffer.width

def size (i : Index) : Nat := i.buffer.size

def isEmpty (i : Index) : Bool := i.buffer.isEmpty

def rows (i : Index) : List Row := i.buffer.rows

/-- The stored row with this id. -/
def row? (i : Index) (id : Nat) : Option Row := i.buffer.row? id

/-! ### Rows of the wrong length -/

/-- The error that names the first row whose length is not `width`, the first one of them
all being row `start`. -/
def mismatch? (width start : Nat) : List Row → Option SearchError
  | [] => none
  | row :: rest =>
    if row.length = width then mismatch? width (start + 1) rest
    else some (.dimensionMismatch start width row.length)

theorem mismatch?_eq_none_iff {width start : Nat} {rows : List Row} :
    mismatch? width start rows = none ↔ ∀ row ∈ rows, row.length = width := by
  induction rows generalizing start with
  | nil => simp [mismatch?]
  | cons row rest ih =>
    rw [mismatch?]
    split <;> simp_all

/-- Whether all rows have the length of the index's rows. -/
def checkRows (i : Index) (rows : List Row) : Outcome Unit :=
  match mismatch? i.dimension 0 rows with
  | some e => .error e
  | none => .ok ()

/-! ### Adding -/

/-- The values of whole rows as the metric stores them. -/
def stored (metric : Metric) (width : Nat) (values : Array Float32) : Array Float32 :=
  if metric.normalizes then ((rowsOf width values).map unitRow).flatten.toArray else values

theorem dvd_size_stored {metric : Metric} {width : Nat} {values : Array Float32}
    (h : width ∣ values.size) : width ∣ (stored metric width values).size := by
  rw [stored]
  split
  · rw [List.size_toArray]
    refine dvd_length_flatten fun row hr => ?_
    obtain ⟨r, hmem, rfl⟩ := List.mem_map.1 hr
    rw [length_unitRow, length_of_mem_rowsOf hmem]
  · exact h

def append (i : Index) (values : Array Float32) (h : i.dimension ∣ values.size) : Index :=
  { i with buffer := i.buffer.append (stored i.metric i.dimension values) (dvd_size_stored h) }

/-- Adds rows given one by one. -/
def add (i : Index) (rows : List Row) : Outcome Index :=
  match h : mismatch? i.dimension 0 rows with
  | some e => .error e
  | none => .ok (i.append rows.flatten.toArray (by
      rw [List.size_toArray]
      exact dvd_length_flatten (mismatch?_eq_none_iff.1 h)))

/-- Adds rows given in one buffer. A row that is cut short has the place of the first row
that does not fit. -/
def addFlat (i : Index) (values : Array Float32) : Outcome Index :=
  if h : values.size % i.dimension = 0 then .ok (i.append values (Nat.dvd_of_mod_eq_zero h))
  else
    .error (.dimensionMismatch (values.size / i.dimension) i.dimension
      (values.size % i.dimension))

end Index

end NeighborSearch
