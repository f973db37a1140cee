import NeighborSearch.Proofs.Binary.Single
import NeighborSearch.Proofs.Kernel

/-! Sums of squares and their rounding errors.

Each addition takes one more rounding and a fixed amount of slack (`Approximates.add`), whatever the
order of the additions, and a sum that overflows goes on as if there were greater exponents. So a
sum over the lanes is near to the exact one (`approximates_laneSumFrom`), and the squared norm of a
finite row to the exact sum of its squares (`approximates_squaredNorm`). -/
namespace NeighborSearch

namespace Binary
variable {x y : Float32} {m n : Nat} {s s' u v : ℚ}

/-- The absolute value of a finite number. -/
def absValue (x : Float32) : ℚ :=
  match ofSingle x with
  | .finite _ k => single.value k
  | _ => 0

theorem absValue_of_finite {negative : Bool} {k : Nat} (h : ofSingle x = .finite negative k) :
    absValue x = single.value k := by
  rw [absValue, h]

theorem absValue_nonneg (x : Float32) : 0 ≤ absValue x := by
  rw [absValue]
  split
  · exact single.value_nonneg _
  · exact le_rfl

/-- A value that is not negative and near to the exact one; beyond the greatest value it is
infinite. -/
def Approximates (n : Nat) (slack : ℚ) (x : Float32) (exact : ℚ) : Prop :=
  ∃ k, ofSingle x = single.number false k ∧ Near n slack (single.value k) exact

namespace Approximates

theorem mono (h : Approximates m s x u) (hs : 0 ≤ s) (hu : 0 ≤ u) (hn : m ≤ n) (hle : s ≤ s') :
    Approximates n s' x u := by
  obtain ⟨k, hk, hnear⟩ := h
  exact ⟨k, hk, hnear.mono (add_nonneg (single.value_nonneg k) hs) (add_nonneg hu hs) hn hle⟩

theorem of_eq (h : Approximates m s x u) (hn : m = n) (hs : s = s') (hu : u = v) :
    Approximates n s' x v := by
  subst hn hs hu
  exact h

/-- One more rounding, and its slack. -/
theorem add (hx : Approximates n s x u) (hy : Approximates n s' y v) (hs : 0 ≤ s) (hs' : 0 ≤ s') :
    Approximates (n + 1) (s + s' + tiny) (x + y) (u + v) := by
  obtain ⟨a, ha, hnear⟩ := hx
  obtain ⟨b, hb, hnear'⟩ := hy
  obtain ⟨k, hk, hsum⟩ := ofSingle_add ha hb
  have hround := hk.near (add_nonneg (single.value_nonneg a) (single.value_nonneg b))
  have htotal := hround.trans (hnear.add hnear') tiny_pos.le (add_nonneg hs hs')
  rw [add_comm 1 n, add_comm tiny] at htotal
  exact ⟨k, hsum, htotal⟩

theorem add_neg_zero (h : Approximates n s x u) :
    Approximates n s (x + -0.0) u ∧ Approximates n s (-0.0 + x) u := by
  obtain ⟨k, hk, hnear⟩ := h
  obtain ⟨hright, hleft⟩ := ofSingle_add_neg_zero hk
  exact ⟨⟨k, hright, hnear⟩, ⟨k, hleft, hnear⟩⟩

end Approximates

theorem approximates_zero : Approximates 1 0 0.0 0 := by
  refine ⟨0, by decide +kernel, ?_⟩
  rw [single.value_zero]
  exact (Near.refl 0).mono (by simp) (by simp) (Nat.zero_le 1) le_rfl

theorem approximates_mul_self (hx : x.isFinite = true) :
    Approximates 1 tiny (x * x) (absValue x ^ 2) := by
  obtain ⟨negative, a, ha⟩ := isFinite_iff.1 hx
  obtain ⟨k, hk, hproduct⟩ := ofSingle_mul ha ha
  rw [Bool.xor_self] at hproduct
  rw [absValue_of_finite ha, sq]
  exact ⟨k, hproduct, hk.near (mul_nonneg (single.value_nonneg a) (single.value_nonneg a))⟩

end Binary

open Binary

namespace Kernel
variable {n : Nat} {s u v w z : ℚ} {x : Float32} {xs : Row} {exacts : List ℚ}

/-! ### Sums -/

/-- Each term is a rounded one. -/
def Terms (xs : Row) (exacts : List ℚ) : Prop :=
  List.Forall₂ (fun x exact => 0 ≤ exact ∧ Approximates 1 tiny x exact) xs exacts

theorem Terms.sum_nonneg (h : Terms xs exacts) : 0 ≤ exacts.sum := by
  induction h with
  | nil => exact le_rfl
  | cons hx _ ih =>
    rw [List.sum_cons]
    exact add_nonneg hx.1 ih

theorem approximates_foldl_add (hx : Approximates n s x u) (hn : 1 ≤ n) (hs : 0 ≤ s)
    (hu : 0 ≤ u) (h : Terms xs exacts) :
    Approximates (n + exacts.length) (s + 2 * exacts.length * tiny) (xs.foldl (· + ·) x)
      (u + exacts.sum) := by
  induction h generalizing n s x u with
  | nil => simpa using hx
  | @cons y exact ys exacts hy _ ih =>
    have htiny := tiny_pos.le
    have hstep := hx.add (hy.2.mono htiny hy.1 hn le_rfl) hs htiny
    have htail := ih hstep (Nat.le_add_left 1 n) (by positivity) (add_nonneg hu hy.1)
    rw [List.foldl_cons, List.sum_cons, List.length_cons]
    exact htail.of_eq (by omega) (by push_cast; ring) (by ring)

/-- The tail is summed by itself and added then. -/
theorem approximates_add_sum (hx : Approximates n s x u) (hn : 1 ≤ n) (hs : 0 ≤ s) (hu : 0 ≤ u)
    (h : Terms xs exacts) :
    Approximates (n + exacts.length) (s + 2 * exacts.length * tiny) (x + sum xs)
      (u + exacts.sum) := by
  cases h with
  | nil => simpa [sum] using hx.add_neg_zero.1
  | @cons y exact ys exacts hy hys =>
    have htiny := tiny_pos.le
    have htail := approximates_foldl_add hy.2.add_neg_zero.2 le_rfl htiny hy.1 hys
    have hlength : (0 : ℚ) ≤ 2 * exacts.length * tiny := by positivity
    have hexact := add_nonneg hy.1 (Terms.sum_nonneg hys)
    have htotal := (hx.mono hs hu (Nat.le_add_right n exacts.length) le_rfl).add
      (htail.mono (by linarith) hexact (by omega) le_rfl) hs (by linarith)
    rw [sum, List.foldl_cons, List.sum_cons, List.length_cons]
    exact htotal.of_eq (by omega) (by push_cast; ring) rfl

/-- Four running sums. -/
structure Lanes.Approximates (l : Lanes) (n : Nat) (s u v w z : ℚ) : Prop where
  first : Binary.Approximates n s l.first u
  second : Binary.Approximates n s l.second v
  third : Binary.Approximates n s l.third w
  fourth : Binary.Approximates n s l.fourth z

namespace Lanes.Approximates
variable {l : Lanes}

theorem total (h : l.Approximates n s u v w z) (hs : 0 ≤ s) :
    Binary.Approximates (n + 2) (4 * s + 3 * tiny) l.total (u + v + (w + z)) := by
  have htiny := tiny_pos.le
  have htotal := (h.first.add h.second hs hs).add (h.third.add h.fourth hs hs) (by linarith)
    (by linarith)
  exact htotal.of_eq rfl (by ring) rfl

end Lanes.Approximates

/-- A sum over the lanes has no more roundings than terms and additions of the lanes. -/
theorem approximates_laneSumFrom {term : Float32 → Float32 → Float32} {l : Lanes} {a b : Row}
    (hl : l.Approximates n s u v w z) (hn : 1 ≤ n) (hs : 0 ≤ s) (hu : 0 ≤ u) (hv : 0 ≤ v)
    (hw : 0 ≤ w) (hz : 0 ≤ z) (h : Terms (List.zipWith term a b) exacts) :
    Approximates (n + exacts.length + 2) (4 * s + (2 * exacts.length + 3) * tiny)
      (laneSumFrom term l a b) (u + v + (w + z) + exacts.sum) := by
  have htiny := tiny_pos.le
  fun_induction laneSumFrom term l a b generalizing n s u v w z exacts with
  | case1 l a₀ a₁ a₂ a₃ as b₀ b₁ b₂ b₃ bs ih =>
    -- four terms cost each lane one rounding, and are counted as four
    obtain _ | @⟨_, e₀, _, _, h₀, h⟩ := h
    obtain _ | @⟨_, e₁, _, _, h₁, h⟩ := h
    obtain _ | @⟨_, e₂, _, _, h₂, h⟩ := h
    obtain _ | @⟨_, e₃, _, exacts, h₃, h⟩ := h
    have hadd : ∀ {x y : Float32} {r e : ℚ}, Approximates n s x r →
        0 ≤ e ∧ Approximates 1 tiny y e →
          Approximates (n + 1) (s + tiny + tiny) (x + y) (r + e) := fun hx hy =>
      hx.add (hy.2.mono htiny hy.1 hn le_rfl) hs htiny
    have hlanes : (l.add (term a₀ b₀) (term a₁ b₁) (term a₂ b₂) (term a₃ b₃)).Approximates (n + 1)
        (s + tiny + tiny) (u + e₀) (v + e₁) (w + e₂) (z + e₃) :=
      ⟨hadd hl.first h₀, hadd hl.second h₁, hadd hl.third h₂, hadd hl.fourth h₃⟩
    have hrest := ih hlanes (Nat.le_add_left 1 n) (by linarith) (add_nonneg hu h₀.1)
      (add_nonneg hv h₁.1) (add_nonneg hw h₂.1) (add_nonneg hz h₃.1) h
    have hexacts := Terms.sum_nonneg h
    have hle : 0 ≤ 4 * (s + tiny + tiny) + (2 * exacts.length + 3) * tiny := by positivity
    refine (hrest.mono hle (by linarith [h₀.1, h₁.1, h₂.1, h₃.1]) ?_ le_rfl).of_eq rfl ?_ ?_
    · simp only [List.length_cons]
      omega
    · simp only [List.length_cons]
      push_cast
      ring
    · simp only [List.sum_cons]
      ring
  | case2 l as bs =>
    have htail := approximates_add_sum (hl.total hs) (by omega) (by linarith) (by linarith) h
    exact htail.of_eq (by omega) (by ring) rfl

end Kernel

open Kernel

/-- The exact sum of the squares of a finite row. -/
def sumOfSquares (row : Row) : ℚ := (row.map fun x => absValue x ^ 2).sum

theorem approximates_squaredNorm {row : Row} (h : ∀ x ∈ row, x.isFinite = true) :
    Approximates (row.length + 3) ((2 * row.length + 3) * tiny) (squaredNorm row)
      (sumOfSquares row) := by
  have hzero : Lanes.zero.Approximates 1 0 0 0 0 0 :=
    ⟨approximates_zero, approximates_zero, approximates_zero, approximates_zero⟩
  have hterms : Terms (List.zipWith (· * ·) row row) (row.map fun x => absValue x ^ 2) := by
    rw [List.zipWith_self, Terms, List.forall₂_map_left_iff, List.forall₂_map_right_iff,
      List.forall₂_same]
    exact fun x hx => ⟨sq_nonneg _, approximates_mul_self (h x hx)⟩
  have hsum := approximates_laneSumFrom hzero le_rfl le_rfl le_rfl le_rfl le_rfl le_rfl hterms
  rw [List.length_map] at hsum
  exact hsum.of_eq (by omega) (by ring) (by rw [sumOfSquares]; ring)

end NeighborSearch
