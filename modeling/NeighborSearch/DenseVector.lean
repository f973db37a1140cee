import NeighborSearch.Decimal.Literal
import NeighborSearch.Error
import NeighborSearch.Kernel
import NeighborSearch.Text.Blank

/-! Vectors written as text.

The components stand between commas, blanks around them do not count, and each one is a
number literal, rounded once. The first item that is none is the one an error names. -/
namespace NeighborSearch

structure DenseVector where
  components : Row
deriving BEq, Repr

namespace DenseVector
open Text Decimal

def dimension (v : DenseVector) : Nat := v.components.length

def readItem (item : List Char) : Outcome Float32 :=
  match Literal.read? (trim item) with
  | some l => .ok l.toSingle
  | none => .error (.invalidVector (trim item))

def parse (text : List Char) : Outcome DenseVector := do
  return ⟨← (pieces ',' text).mapM readItem⟩

end DenseVector

end NeighborSearch
