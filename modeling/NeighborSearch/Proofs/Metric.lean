import NeighborSearch.Metric
import NeighborSearch.Proofs.Binary.SignedSum
import NeighborSearch.Proofs.Kernel

/-! What every score has in common.

A rounded term does not know which of its two components came first, and the lanes take the terms
in one order either way, so no kernel depends on which row comes first (`squaredDistance_comm`,
`innerProduct_comm`).

A sum over the lanes starts at the positive zero. Only two negative zeros add up to a negative
zero, so that zero is never a score, even though the sum of no tail is one; and squares leave
squared distances without a sign (`Metric.signs_of_scores`). -/
namespace NeighborSearch
open Binary

namespace Kernel
variable {term : Float32 → Float32 → Float32} {l : Lanes} {a b : Row}

theorem laneSumFrom_comm (hterm : ∀ x y, term x y = term y x) (l : Lanes) (a b : Row) :
    laneSumFrom term l a b = laneSumFrom term l b a := by
  fun_induction laneSumFrom term l a b with
  | case1 l a₀ a₁ a₂ a₃ as b₀ b₁ b₂ b₃ bs ih =>
    rw [laneSumFrom, ih, hterm a₀, hterm a₁, hterm a₂, hterm a₃]
  | case2 l as bs hshort =>
    rw [laneSumFrom, List.zipWith_comm_of_comm hterm]
    intro b₀ b₁ b₂ b₃ bs' a₀ a₁ a₂ a₃ as' hbs has
    exact hshort _ _ _ _ _ _ _ _ _ _ has hbs

theorem squaredDifference_comm (x y : Float32) : squaredDifference x y = squaredDifference y x :=
  mul_self_of_abs_eq (abs_ofSingle_sub_comm x y)

/-- One lane that is not the negative zero is enough, whatever the terms are. -/
theorem laneSumFrom_ne_neg_zero (h : ofSingle l.first ≠ .finite true 0) :
    ofSingle (laneSumFrom term l a b) ≠ .finite true 0 := by
  have hadd : ∀ {x y : Float32}, ofSingle x ≠ .finite true 0 →
      ofSingle (x + y) ≠ .finite true 0 := fun hx hsum => hx (eq_neg_zero_of_add hsum).1
  fun_induction laneSumFrom term l a b with
  | case1 l a₀ a₁ a₂ a₃ as b₀ b₁ b₂ b₃ bs ih => exact ih (hadd h)
  | case2 l as bs => exact hadd (hadd (hadd h))

theorem toBits_laneSum_ne_neg_zero (term : Float32 → Float32 → Float32) (a b : Row) :
    (laneSum term a b).toBits ≠ (-0.0 : Float32).toBits := by
  have hzero : ofSingle Lanes.zero.first ≠ .finite true 0 := by decide +kernel
  have hsum : ofSingle (laneSum term a b) ≠ .finite true 0 := laneSumFrom_ne_neg_zero hzero
  have hneg : ofSingle (-0.0) = .finite true 0 := by decide +kernel
  intro hbits
  rw [ofSingle, hbits] at hsum
  exact hsum hneg

end Kernel

open Kernel

theorem squaredDistance_comm (a b : Row) : squaredDistance a b = squaredDistance b a :=
  laneSumFrom_comm squaredDifference_comm .zero a b

theorem innerProduct_comm (a b : Row) : innerProduct a b = innerProduct b a :=
  laneSumFrom_comm single_mul_comm .zero a b

namespace Metric

theorem score_eq_laneSum (m : Metric) : ∃ term, m.score = laneSum term := by
  cases m with
  | l2 => exact ⟨squaredDifference, rfl⟩
  | innerProduct | cosine => exact ⟨(· * ·), rfl⟩

/-- A squared distance is a NaN or its sign bit is clear, an inner product is never the negative
zero, and so no score is, and none is below zero where it is a distance. -/
theorem signs_of_scores (a b : Row) :
    ((squaredDistance a b).isNaN = true ∨ (squaredDistance a b).toBits < 0x80000000) ∧
      (NeighborSearch.innerProduct a b).toBits ≠ (-0.0 : Float32).toBits ∧
      (∀ m : Metric, (m.score a b).toBits ≠ (-0.0 : Float32).toBits) ∧
      ¬ l2.score a b < 0.0 := by
  have hclear := signClear_squaredDistance a b
  refine ⟨hclear.isNaN_or_toBits_lt, toBits_laneSum_ne_neg_zero _ a b, fun m => ?_, fun hlt => ?_⟩
  · obtain ⟨term, hterm⟩ := m.score_eq_laneSum
    rw [hterm]
    exact toBits_laneSum_ne_neg_zero term a b
  · have hzero : place? 0.0 = some 0 := by decide +kernel
    obtain ⟨p, q, hp, hq, hpq⟩ := lt_iff_place.1 hlt
    have hnonneg := hclear.place?_nonneg hp
    rw [hzero] at hq
    cases hq
    omega

end Metric

end NeighborSearch
