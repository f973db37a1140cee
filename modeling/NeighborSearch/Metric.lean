import NeighborSearch.Kernel

/-! The metrics by which rows are compared.

Under the squared Euclidean distance the smaller score is the nearer one; inner product
and cosine are similarities, where it is the greater one. Cosine is the inner product of
unit rows, and whoever stores or queries rows under it makes them unit rows first. -/
namespace NeighborSearch

inductive Metric where
  | l2
  | innerProduct
  | cosine
deriving DecidableEq, Repr

namespace Metric

instance : Inhabited Metric := ⟨l2⟩

def all : List Metric := [l2, innerProduct, cosine]

def name : Metric → String
  | l2 => "l2"
  | innerProduct => "inner_product"
  | cosine => "cosine"

def ofName? (name : String) : Option Metric :=
  all.find? fun m => m.name = name

def isSimilarity : Metric → Bool
  | l2 => false
  | innerProduct | cosine => true

def normalizes : Metric → Bool
  | l2 | innerProduct => false
  | cosine => true

/-- The score of two rows as they are. -/
def score : Metric → Row → Row → Float32
  | l2 => squaredDistance
  | innerProduct | cosine => NeighborSearch.innerProduct

/-- What the metric makes of a row before it is stored or compared. -/
def prepare (m : Metric) (row : Row) : Row :=
  if m.normalizes then unitRow row else row

/-- Strictly nearer than the radius; nothing compares with a NaN. -/
def within (m : Metric) (score radius : Float32) : Bool :=
  if m.isSimilarity then radius < score else score < radius

end Metric

end NeighborSearch
