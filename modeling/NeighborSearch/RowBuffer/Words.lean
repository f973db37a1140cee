import NeighborSearch.RowBuffer

/-! Offsets of rows in 64-bit words.

The same rows as in `RowBuffer`, found by calculating with 64-bit words alone. `wordRow?`
gives nothing where a product or a sum is no word any more; `wordStoredRow` lets them wrap
around, as for ids that are in range they never do. -/
namespace NeighborSearch.RowBuffer

/-- The product, unless it is no word. -/
def mulWords? (a b : UInt64) : Option UInt64 :=
  if a.toNat * b.toNat < UInt64.size then some (a * b) else none

/-- The sum, unless it is no word. -/
def addWords? (a b : UInt64) : Option UInt64 :=
  if a.toNat + b.toNat < UInt64.size then some (a + b) else none

/-- The values between two offsets. -/
def slice (b : RowBuffer) (start stop : UInt64) : Row :=
  (b.values.extract start.toNat stop.toNat).toList

def wordRow? (b : RowBuffer) (id : UInt64) : Option Row := do
  let width := UInt64.ofNat b.width
  let start ← mulWords? id width
  let stop ← addWords? start width
  if stop.toNat ≤ b.values.size then some (b.slice start stop) else none

def wordStoredRow (b : RowBuffer) (id : UInt64) : Row :=
  let width := UInt64.ofNat b.width
  b.slice (id * width) (id * width + width)

end NeighborSearch.RowBuffer
