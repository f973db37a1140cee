import NeighborSearch.Proofs.Binary.Double
import NeighborSearch.Proofs.Binary.Ordinal

/-! Double-precision values on the number line.

As single-precision ones they have places there, a NaN none, and the arithmetic compares them by
their places (`double_le_iff_place`). Numbers with a clear sign stand in the order of their
magnitudes, which is also the order of their bit patterns (`double_le_iff_magnitude`). -/
namespace NeighborSearch.Binary
open Float.Model (UnpackedFloat)

variable {x y : Float}

theorem infinity_double_pos : 0 < double.infinity := by decide

theorem double_isNaN_iff : x.isNaN = true ↔ ofDouble x = .nan := by
  show x.toModel.unpack.isNaN = true ↔ _
  rw [UnpackedFloat.isNaN_iff, unpack_double]
  cases ofDouble x with
  | nan => simp [Format.unpacked]
  | infinite negative => simp [Format.unpacked]
  | finite negative magnitude => by_cases hz : magnitude = 0 <;> simp [Format.unpacked, hz]

theorem double_isFinite_iff : x.isFinite = true ↔
    ∃ negative magnitude, ofDouble x = .finite negative magnitude := by
  show x.toModel.unpack.isFinite = true ↔ _
  rw [unpack_double]
  cases ofDouble x with
  | nan => simp [Format.unpacked, UnpackedFloat.isFinite]
  | infinite negative => simp [Format.unpacked, UnpackedFloat.isFinite]
  | finite negative magnitude =>
    by_cases hz : magnitude = 0 <;> simp [Format.unpacked, UnpackedFloat.isFinite, hz]

/-- **One double is at most another exactly when both have a place and its place is not beyond
the other's.** -/
theorem double_le_iff_place : x ≤ y ↔
    ∃ p q, double.ordinal? (ofDouble x) = some p ∧ double.ordinal? (ofDouble y) = some q ∧
      p ≤ q := by
  have hle : x ≤ y ↔ (x.toModel.unpack.compare y.toModel.unpack).any (·.isLE) = true := by
    show decide (x.toModel.unpack.le y.toModel.unpack = true) = true ↔ _
    rw [decide_eq_true_eq, UnpackedFloat.le]
  rw [hle, unpack_double, unpack_double]
  cases hx : double.ordinal? (ofDouble x) with
  | none =>
    rw [compare_eq_none (.inl (ordinal?_eq_none.1 hx))]
    simp
  | some p =>
    cases hy : double.ordinal? (ofDouble y) with
    | none =>
      rw [compare_eq_none (.inr (ordinal?_eq_none.1 hy))]
      simp
    | some q =>
      have hcompare : ((double.unpacked (ofDouble x)).compare (double.unpacked (ofDouble y))) =
          some (compare p q) := compare_decode infinity_double_pos hx hy
      rw [hcompare]
      simp [Int.isLE_compare]

theorem double_le_iff_magnitude {a b : Nat} (hx : ofDouble x = .finite false a)
    (hy : ofDouble y = .finite false b) : x ≤ y ↔ a ≤ b := by
  rw [double_le_iff_place, hx, hy]
  simp [Format.ordinal?]

end NeighborSearch.Binary
