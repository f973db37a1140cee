import NeighborSearch.Kernel
import NeighborSearch.Proofs.Binary.Sign

/-! Sums over pairs of components.

What the terms of a sum have in common, the sum has too, for every length: `laneSumFrom` is told
by its running sums and its tail, and the start of the tail, the negative zero, is the one value
that has to be looked at by itself. So a squared distance is never negative
(`signClear_squaredDistance`), and the one of a finite row to itself is the positive zero
(`squaredDistance_self`). -/
namespace NeighborSearch
open Binary (SignClear)

namespace Kernel
variable {term : Float32 → Float32 → Float32} {xs a b : Row}

/-! ### Sums that are not negative -/

theorem signClear_foldl_add {acc : Float32} (hacc : SignClear acc) (h : ∀ x ∈ xs, SignClear x) :
    SignClear (xs.foldl (· + ·) acc) := by
  induction xs generalizing acc with
  | nil => exact hacc
  | cons x rest ih =>
    rw [List.foldl_cons]
    exact ih (hacc.add (h x (List.mem_cons_self ..))) fun y hy => h y (List.mem_cons_of_mem _ hy)

/-- Only the sum of nothing keeps the sign of the start. -/
theorem signClear_add_sum {x : Float32} (hx : SignClear x) (h : ∀ y ∈ xs, SignClear y) :
    SignClear (x + sum xs) := by
  cases xs with
  | nil => exact hx.add_neg_zero.1
  | cons y rest =>
    have hy := (h y (List.mem_cons_self ..)).add_neg_zero.2
    refine hx.add ?_
    rw [sum, List.foldl_cons]
    exact signClear_foldl_add hy fun z hz => h z (List.mem_cons_of_mem _ hz)

/-- Four running sums that are not negative. -/
structure Lanes.SignClear (l : Lanes) : Prop where
  first : Binary.SignClear l.first
  second : Binary.SignClear l.second
  third : Binary.SignClear l.third
  fourth : Binary.SignClear l.fourth

theorem Lanes.SignClear.total {l : Lanes} (hl : l.SignClear) : Binary.SignClear l.total :=
  (hl.first.add hl.second).add (hl.third.add hl.fourth)

theorem Lanes.signClear_zero : Lanes.zero.SignClear := by
  have hzero : Binary.SignClear 0.0 := by
    rw [Binary.SignClear]
    decide +kernel
  exact ⟨hzero, hzero, hzero, hzero⟩

theorem signClear_laneSumFrom (hterm : ∀ x y, SignClear (term x y)) {l : Lanes}
    (hl : l.SignClear) : SignClear (laneSumFrom term l a b) := by
  fun_induction laneSumFrom term l a b with
  | case1 l a₀ a₁ a₂ a₃ as b₀ b₁ b₂ b₃ bs ih =>
    exact ih ⟨hl.first.add (hterm ..), hl.second.add (hterm ..), hl.third.add (hterm ..),
      hl.fourth.add (hterm ..)⟩
  | case2 l as bs =>
    refine signClear_add_sum hl.total fun y hy => ?_
    obtain ⟨i, hi, rfl⟩ := List.mem_iff_getElem.1 hy
    rw [List.getElem_zipWith]
    exact hterm ..

/-! ### Sums of zeros -/

theorem zero_add_zero : (0.0 : Float32) + 0.0 = 0.0 := by decide +kernel

theorem zero_add_zeros : Lanes.zero.add 0.0 0.0 0.0 0.0 = Lanes.zero := by
  rw [Lanes.add, Lanes.zero, zero_add_zero]

theorem foldl_add_zeros (n : Nat) : (List.replicate n (0.0 : Float32)).foldl (· + ·) 0.0 = 0.0 := by
  induction n with
  | zero => rfl
  | succ n ih => rw [List.replicate_succ, List.foldl_cons, zero_add_zero, ih]

/-- A tail of zeros leaves the zero that it is added to. -/
theorem zero_add_sum_zeros (n : Nat) : 0.0 + sum (List.replicate n 0.0) = 0.0 := by
  cases n with
  | zero => decide +kernel
  | succ n =>
    have hstart : (-0.0 : Float32) + 0.0 = 0.0 := by decide +kernel
    rw [sum, List.replicate_succ, List.foldl_cons, hstart, foldl_add_zeros, zero_add_zero]

theorem laneSumFrom_zero (h : ∀ i (ha : i < a.length) (hb : i < b.length), term a[i] b[i] = 0.0) :
    laneSumFrom term .zero a b = 0.0 := by
  generalize hl : Lanes.zero = l
  fun_induction laneSumFrom term l a b with
  | case1 l a₀ a₁ a₂ a₃ as b₀ b₁ b₂ b₃ bs ih =>
    have h₀ : term a₀ b₀ = 0.0 := h 0 (by simp) (by simp)
    have h₁ : term a₁ b₁ = 0.0 := h 1 (by simp) (by simp)
    have h₂ : term a₂ b₂ = 0.0 := h 2 (by simp) (by simp)
    have h₃ : term a₃ b₃ = 0.0 := h 3 (by simp) (by simp)
    subst hl
    rw [h₀, h₁, h₂, h₃, zero_add_zeros] at ih ⊢
    exact ih (fun i ha hb => h (i + 4) (Nat.add_lt_add_right ha 4) (Nat.add_lt_add_right hb 4)) rfl
  | case2 l as bs =>
    have hzeros : List.zipWith term as bs = List.replicate (min as.length bs.length) 0.0 := by
      rw [List.eq_replicate_iff, List.length_zipWith]
      refine ⟨rfl, fun y hy => ?_⟩
      obtain ⟨i, hi, rfl⟩ := List.mem_iff_getElem.1 hy
      rw [List.length_zipWith] at hi
      rw [List.getElem_zipWith]
      exact h i (by omega) (by omega)
    have htotal : Lanes.zero.total = 0.0 := by
      rw [Lanes.total, Lanes.zero, zero_add_zero, zero_add_zero]
    rw [← hl, htotal, hzeros, zero_add_sum_zeros]

end Kernel

open Kernel

/-- A squared distance is a NaN or not negative. -/
theorem signClear_squaredDistance (a b : Row) : SignClear (squaredDistance a b) :=
  signClear_laneSumFrom (fun _ _ => Binary.signClear_mul_self _) Lanes.signClear_zero

/-- A finite row is at the distance zero from itself. -/
theorem squaredDistance_self {a : Row} (h : ∀ x ∈ a, x.isFinite = true) :
    squaredDistance a a = 0.0 := by
  refine laneSumFrom_zero fun i ha _ => ?_
  have hsquare : (0.0 : Float32) * 0.0 = 0.0 := by decide +kernel
  rw [squaredDifference, Binary.single_sub_self (h _ (List.getElem_mem ha)), hsquare]

end NeighborSearch
