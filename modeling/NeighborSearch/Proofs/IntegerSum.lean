import NeighborSearch.Proofs.Binary.SignedSum
import NeighborSearch.Proofs.Kernel

/-! Exact sums of whole numbers.

As long as the magnitudes of what is added come to no more than `2 ^ 24`, every running sum is a
whole number that a significand has room for, whatever is added first. So a sum over the lanes is
exactly the sum of its terms: each pair of components counts, and counts once
(`isInteger_laneSumFrom`). The components themselves may be as great as they like where their
products or differences are small (`kernels_exact`). -/
namespace NeighborSearch
open Binary

namespace Kernel
variable {x : Float32} {xs a b : Row} {u v w z : Int} {zs ms ns : List Int}
  {term : Float32 → Float32 → Float32} {exact : Int → Int → Int}

/-! ### Sums -/

/-- What the magnitudes come to. -/
def extent (zs : List Int) : Nat := (zs.map Int.natAbs).sum

theorem extent_cons (z : Int) (zs : List Int) : extent (z :: zs) = z.natAbs + extent zs := by
  rw [extent, List.map_cons, List.sum_cons, extent]

theorem natAbs_sum_le_extent (zs : List Int) : zs.sum.natAbs ≤ extent zs := by
  induction zs with
  | nil => exact le_rfl
  | cons z zs ih =>
    have hsum := Int.natAbs_add_le z zs.sum
    rw [List.sum_cons, extent_cons]
    omega

theorem extent_eq_sum (h : ∀ z ∈ zs, 0 ≤ z) : (extent zs : Int) = zs.sum := by
  induction zs with
  | nil => rfl
  | cons z zs ih =>
    have hz := h z (List.mem_cons_self ..)
    have hrest := ih fun y hy => h y (List.mem_cons_of_mem z hy)
    rw [extent_cons, List.sum_cons]
    omega

/-- A row of whole numbers. -/
def Integers (xs : Row) (zs : List Int) : Prop := List.Forall₂ IsInteger xs zs

theorem isInteger_foldl_add (hx : IsInteger x z) (h : Integers xs zs)
    (hroom : z.natAbs + extent zs ≤ 2 ^ 24) : IsInteger (xs.foldl (· + ·) x) (z + zs.sum) := by
  induction h generalizing x z with
  | nil => rwa [List.foldl_nil, List.sum_nil, add_zero]
  | @cons y m ys ms hy _ ih =>
    rw [extent_cons] at hroom
    have hstep := Int.natAbs_add_le z m
    have htail := ih (hx.add hy (by omega)) (by omega)
    rwa [List.foldl_cons, List.sum_cons, ← add_assoc]

theorem isInteger_sum (h : Integers xs zs) (hroom : extent zs ≤ 2 ^ 24) :
    IsInteger (sum xs) zs.sum := by
  have hstart : IsInteger (-0.0) 0 := by decide +kernel
  have hsum := isInteger_foldl_add hstart h (by rwa [Int.natAbs_zero, zero_add])
  rwa [zero_add] at hsum

/-- Four running sums of whole numbers. -/
structure Lanes.IsInteger (l : Lanes) (u v w z : Int) : Prop where
  first : Binary.IsInteger l.first u
  second : Binary.IsInteger l.second v
  third : Binary.IsInteger l.third w
  fourth : Binary.IsInteger l.fourth z

theorem Lanes.isInteger_zero : Lanes.zero.IsInteger 0 0 0 0 := by
  have hzero : Binary.IsInteger 0.0 0 := by decide +kernel
  exact ⟨hzero, hzero, hzero, hzero⟩

/-- While there is room for all magnitudes together, a sum over the lanes is exact. -/
theorem isInteger_laneSumFrom {l : Lanes} (hl : l.IsInteger u v w z)
    (h : Integers (List.zipWith term a b) zs)
    (hroom : u.natAbs + v.natAbs + w.natAbs + z.natAbs + extent zs ≤ 2 ^ 24) :
    IsInteger (laneSumFrom term l a b) (u + v + (w + z) + zs.sum) := by
  fun_induction laneSumFrom term l a b generalizing u v w z zs with
  | case1 l a₀ a₁ a₂ a₃ as b₀ b₁ b₂ b₃ bs ih =>
    obtain _ | @⟨_, z₀, _, _, h₀, h⟩ := h
    obtain _ | @⟨_, z₁, _, _, h₁, h⟩ := h
    obtain _ | @⟨_, z₂, _, _, h₂, h⟩ := h
    obtain _ | @⟨_, z₃, _, zs, h₃, h⟩ := h
    simp only [extent_cons] at hroom
    -- what a lane takes in is no longer in the rest
    have hu := Int.natAbs_add_le u z₀
    have hv := Int.natAbs_add_le v z₁
    have hw := Int.natAbs_add_le w z₂
    have hz := Int.natAbs_add_le z z₃
    have hlanes : (l.add (term a₀ b₀) (term a₁ b₁) (term a₂ b₂) (term a₃ b₃)).IsInteger (u + z₀)
        (v + z₁) (w + z₂) (z + z₃) :=
      ⟨hl.first.add h₀ (by omega), hl.second.add h₁ (by omega), hl.third.add h₂ (by omega),
        hl.fourth.add h₃ (by omega)⟩
    have hsum := ih hlanes h (by omega)
    simp only [List.sum_cons]
    convert hsum using 1
    ring
  | case2 l as bs =>
    have huv := Int.natAbs_add_le u v
    have hwz := Int.natAbs_add_le w z
    have hlanes := Int.natAbs_add_le (u + v) (w + z)
    have hall := Int.natAbs_add_le (u + v + (w + z)) zs.sum
    have hsum := natAbs_sum_le_extent zs
    have htotal : IsInteger l.total (u + v + (w + z)) :=
      (hl.first.add hl.second (by omega)).add (hl.third.add hl.fourth (by omega)) (by omega)
    exact htotal.add (isInteger_sum h (by omega)) (by omega)

/-! ### Terms -/

/-- A term that is exact while there is room for it. -/
def ExactTerm (term : Float32 → Float32 → Float32) (exact : Int → Int → Int) : Prop :=
  ∀ ⦃x y m n⦄, IsInteger x m → IsInteger y n → (exact m n).natAbs ≤ 2 ^ 24 →
    IsInteger (term x y) (exact m n)

theorem exactTerm_mul : ExactTerm (· * ·) (· * ·) :=
  fun _ _ _ _ hx hy hroom => hx.mul hy hroom

theorem exactTerm_squaredDifference : ExactTerm squaredDifference fun m n => (m - n) ^ 2 := by
  intro x y m n hx hy hroom
  simp only [sq] at hroom ⊢
  have hle : (m - n).natAbs ≤ ((m - n) * (m - n)).natAbs := by
    rw [Int.natAbs_mul]
    exact Nat.le_mul_self _
  have hdifference := hx.sub hy (hle.trans hroom)
  exact hdifference.mul hdifference hroom

theorem ExactTerm.zipWith (hterm : ExactTerm term exact) (ha : Integers a ms) (hb : Integers b ns)
    (hroom : extent (List.zipWith exact ms ns) ≤ 2 ^ 24) :
    Integers (List.zipWith term a b) (List.zipWith exact ms ns) := by
  induction ha generalizing b ns with
  | nil => exact .nil
  | @cons x m a ms hx _ ih =>
    cases hb with
    | nil => exact .nil
    | @cons y n b ns hy hb =>
      rw [List.zipWith_cons_cons, extent_cons] at hroom
      exact .cons (hterm hx hy (by omega)) (ih hb (by omega))

theorem ExactTerm.laneSum (hterm : ExactTerm term exact) (ha : Integers a ms) (hb : Integers b ns)
    (hroom : extent (List.zipWith exact ms ns) ≤ 2 ^ 24) :
    IsInteger (laneSum term a b) (List.zipWith exact ms ns).sum := by
  have hsum := isInteger_laneSumFrom Lanes.isInteger_zero (hterm.zipWith ha hb hroom) (by simpa)
  rwa [add_zero, add_zero, zero_add] at hsum

end Kernel

open Kernel

/-- On whole numbers both kernels are exact while there is room for the magnitudes of all terms,
whatever the number of components. -/
theorem kernels_exact {a b : Row} {ms ns : List Int} (ha : List.Forall₂ IsInteger a ms)
    (hb : List.Forall₂ IsInteger b ns) :
    ((List.zipWith (fun m n => (m * n).natAbs) ms ns).sum ≤ 2 ^ 24 →
      IsInteger (innerProduct a b) (List.zipWith (· * ·) ms ns).sum) ∧
    ((List.zipWith (fun m n => (m - n) ^ 2) ms ns).sum ≤ 2 ^ 24 →
      IsInteger (squaredDistance a b) (List.zipWith (fun m n => (m - n) ^ 2) ms ns).sum) := by
  constructor
  · intro hroom
    refine exactTerm_mul.laneSum ha hb ?_
    rwa [extent, List.map_zipWith]
  · intro hroom
    have hextent : (extent (List.zipWith (fun m n => (m - n) ^ 2) ms ns) : Int) =
        (List.zipWith (fun m n => (m - n) ^ 2) ms ns).sum := by
      refine extent_eq_sum fun z hz => ?_
      obtain ⟨i, hi, rfl⟩ := List.mem_iff_getElem.1 hz
      rw [List.getElem_zipWith]
      exact sq_nonneg _
    exact exactTerm_squaredDifference.laneSum ha hb (by omega)

/-- Components too great for a significand, a negative zero, and a product that takes all the room
there is. -/
theorem kernels_exact_mixed :
    IsInteger (innerProduct [1e30, -2, 3, -0.0, 4096, -5, 5] [0.0, 4, -1, 9, 4095, 6, -811])
        16769024 ∧
      IsInteger (squaredDistance [1e30, -2, 3, -0.0, 4096, -5, 5] [1e30, 4, -1, 9, 8, 6, 1])
        16712014 := by
  have ha : List.Forall₂ IsInteger [1e30, -2, 3, -0.0, 4096, -5, 5]
      [0xc9f2ca * 2 ^ 76, -2, 3, 0, 4096, -5, 5] := by
    simp only [List.forall₂_cons, List.Forall₂.nil, and_true]
    decide +kernel
  have hb : List.Forall₂ IsInteger [0.0, 4, -1, 9, 4095, 6, -811] [0, 4, -1, 9, 4095, 6, -811] := by
    simp only [List.forall₂_cons, List.Forall₂.nil, and_true]
    decide +kernel
  have hc : List.Forall₂ IsInteger [1e30, 4, -1, 9, 8, 6, 1]
      [0xc9f2ca * 2 ^ 76, 4, -1, 9, 8, 6, 1] := by
    simp only [List.forall₂_cons, List.Forall₂.nil, and_true]
    decide +kernel
  exact ⟨(kernels_exact ha hb).1 (by decide), (kernels_exact ha hc).2 (by decide)⟩

end NeighborSearch
