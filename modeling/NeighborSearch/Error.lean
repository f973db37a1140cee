import NeighborSearch.Text.Quoted

/-! What can go wrong with an index, and how it is told. -/
namespace NeighborSearch

inductive SearchError where
  /-- Rows of an index have at least one component. -/
  | invalidDimension (dimension : Nat)
  /-- A row of a batch has another length than the rows of the index. -/
  | dimensionMismatch (row expected actual : Nat)
  /-- At least one neighbor has to be asked for. -/
  | invalidK (k : Nat)
  /-- No row has this id. -/
  | idOutOfRange (id len : Nat)
  /-- An item of a written vector is no number. -/
  | invalidVector (item : List Char)
  /-- At least one thread has to search. -/
  | invalidThreadCount (threads : Nat)
  /-- The search was stopped after this many queries. -/
  | interrupted (completed : Nat)
deriving DecidableEq, Repr

def SearchError.message : SearchError → String
  | invalidDimension dimension => s!"Invalid dimension: {dimension} (must be at least 1)"
  | dimensionMismatch row expected actual =>
    s!"Dimension mismatch at row {row}: expected {expected}, got {actual}"
  | invalidK k => s!"Invalid k: {k} (must be at least 1)"
  | idOutOfRange id len => s!"Id {id} out of range for index of size {len}"
  | invalidVector item => "Invalid vector: Invalid float: " ++ String.ofList (Text.quoted item)
  | invalidThreadCount threads => s!"Invalid thread count: {threads} (must be at least 1)"
  | interrupted completed => s!"Search interrupted after {completed} queries"

/-- The result of an operation that may fail. -/
abbrev Outcome := Except SearchError

end NeighborSearch
