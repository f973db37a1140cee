import NeighborSearch.Proofs.Index.Rows
import NeighborSearch.Proofs.RoundedSum

/-! Unit rows and their norms.

The squared norm `s` of a finite row is near to the exact sum of its squares, and the factor `i`
that the row is scaled by is near to `1 / √s`, so that `i² s` is near to one
(`exists_inverse`). With it the scaled row has an exact sum of squares near to one, if `s` is not so
small that the slack of the roundings counts, and so has its norm (`hasUnitNorm_unitRow`). -/
namespace NeighborSearch
open Binary

namespace Binary

/-! ### Bounds -/

theorem growth_pow_le {n : Nat} (hn : n ≤ 2 ^ 22) : growth ^ n ≤ 1 + n / 2 ^ 22 := by
  induction n with
  | zero => simp
  | succ n ih =>
    have hprevious := ih (by omega)
    have hn' : (n : ℚ) ≤ 2 ^ 22 := by exact_mod_cast (Nat.le_succ n).trans hn
    calc growth ^ (n + 1) = growth ^ n * growth := pow_succ _ _
      _ ≤ (1 + n / 2 ^ 22) * growth :=
        mul_le_mul_of_nonneg_right hprevious (zero_le_one.trans one_le_growth)
      _ ≤ 1 + (n + 1 : Nat) / 2 ^ 22 := by
        rw [growth]
        push_cast
        linarith

theorem growth_pow_le_two {n : Nat} (hn : n ≤ 2 ^ 22) : growth ^ n ≤ 2 := by
  have hn' : (n : ℚ) ≤ 2 ^ 22 := by exact_mod_cast hn
  refine (growth_pow_le hn).trans ?_
  linarith

/-- What a squared norm has of slack, for rows that are not too long. -/
theorem slack_le {n : Nat} (hn : n ≤ 1024) : (2 * n + 3) * tiny ≤ 2 ^ (-137 : Int) := by
  have hn' : 2 * (n : ℚ) + 3 ≤ 2051 := by exact_mod_cast (by omega : 2 * n + 3 ≤ 2051)
  have hmul := mul_le_mul_of_nonneg_right hn' tiny_pos.le
  rw [tiny] at hmul ⊢
  norm_num at hmul ⊢
  linarith

namespace Near
variable {n : Nat} {s x y : ℚ}

/-- The slack of a square, for numbers that are not great. -/
theorem sq (h : Near 1 tiny x y) (hx : 0 ≤ x) (hy : 0 ≤ y) (hle : y ≤ 2) :
    Near 2 (5 * tiny) (x ^ 2) (y ^ 2) := by
  have htiny : 0 < tiny := tiny_pos
  have hsmall : tiny ≤ 1 / 8 := by
    rw [tiny]
    norm_num
  have hstep : ∀ {u v : ℚ}, 0 ≤ u → 0 ≤ v → v ≤ 9 / 4 → u ≤ (v + tiny) * growth ^ 1 →
      u ^ 2 ≤ (v ^ 2 + 5 * tiny) * growth ^ 2 := by
    intro u v hu hv hv' h
    rw [pow_one] at h
    calc u ^ 2 ≤ ((v + tiny) * growth) ^ 2 := pow_le_pow_left₀ hu h 2
      _ = (v ^ 2 + (2 * v + tiny) * tiny) * growth ^ 2 := by ring
      _ ≤ (v ^ 2 + 5 * tiny) * growth ^ 2 := by
        refine mul_le_mul_of_nonneg_right ?_ (growth_pow_nonneg 2)
        have := mul_le_mul_of_nonneg_right (show 2 * v + tiny ≤ 5 by linarith) htiny.le
        linarith
  have hx' : x ≤ 9 / 4 := by
    have h := h.left
    rw [pow_one, growth] at h
    norm_num at h
    linarith
  exact ⟨hstep hx hy (by linarith) h.left, hstep hy hx hx' h.right⟩

theorem sum {α : Type} {f g : α → ℚ} {xs : List α} (h : ∀ x ∈ xs, Near n s (f x) (g x)) :
    Near n (xs.length * s) (xs.map f).sum (xs.map g).sum := by
  induction xs with
  | nil => exact ⟨by simp, by simp⟩
  | cons x xs ih =>
    rw [List.forall_mem_cons] at h
    have htotal := h.1.add (ih h.2)
    rw [List.map_cons, List.map_cons, List.sum_cons, List.sum_cons, List.length_cons]
    have hslack : ((xs.length + 1 : Nat) : ℚ) * s = s + xs.length * s := by
      push_cast
      ring
    rwa [hslack]

end Near

end Binary

theorem ne_zero_of_normal {a : Nat} (h : (2 : ℚ) ^ (-126 : Int) ≤ single.value a) : a ≠ 0 := by
  rintro rfl
  rw [single.value_zero] at h
  exact absurd (zpow_pos two_pos _) h.not_gt

theorem sq_absValue_le {row : Row} {x : Float32} (hx : x ∈ row) :
    absValue x ^ 2 ≤ sumOfSquares row :=
  List.single_le_sum (List.forall_mem_map.2 fun _ _ => sq_nonneg _) _ (List.mem_map_of_mem hx)

theorem sumOfSquares_nonneg (row : Row) : 0 ≤ sumOfSquares row :=
  List.sum_nonneg (List.forall_mem_map.2 fun _ _ => sq_nonneg _)

/-! ### The factor -/

section Factor
variable {row : Row} {a : Nat} (hs : ofSingle (squaredNorm row) = .finite false a) (ha : a ≠ 0)
include hs ha

/-- The norm is far from the ends of the format, even if its square is not. -/
theorem exists_norm : ∃ b, ofSingle (norm row) = .finite false b ∧
    (2 : ℚ) ^ (-76 : Int) ≤ single.value b ∧ single.value b ≤ 2 ^ 65 ∧
      Near 3 0 (single.value b ^ 2) (single.value a) := by
  obtain ⟨b, hroot, hnorm⟩ := ofSingle_sqrt hs
  have hgrowth : growth ^ 3 ≤ 2 := growth_pow_le_two (by decide)
  have hleast := tiny_le_value (Nat.pos_of_ne_zero ha)
  have hgreatest : single.value a < 2 ^ 128 := by
    rw [← value_infinity]
    exact single.value_strictMono (magnitude_lt_infinity hs)
  have hlow : (2 : ℚ) ^ (-76 : Int) ≤ single.value b := by
    have h := hroot.right
    have hmul := mul_le_mul_of_nonneg_left hgrowth (sq_nonneg (single.value b))
    rw [tiny] at hleast
    refine le_of_sq_le_sq ?_ (single.value_nonneg b)
    norm_num at h hleast ⊢
    linarith
  have hhigh : single.value b ≤ 2 ^ 65 := by
    have h := hroot.left
    have hmul := mul_le_mul_of_nonneg_left hgrowth (single.value_nonneg a)
    refine le_of_sq_le_sq ?_ (by positivity)
    norm_num at h hgreatest ⊢
    linarith
  refine ⟨b, ?_, hlow, hhigh, hroot⟩
  rw [← number_of_lt false (lt_infinity_of_value (hhigh.trans_lt (by norm_num)))]
  exact hnorm

theorem zero_lt_norm : 0.0 < norm row := by
  obtain ⟨b, hnorm, hlow, -⟩ := exists_norm hs ha
  have hzero : place? 0.0 = some 0 := by decide +kernel
  have hplace : place? (norm row) = some (b : Int) := by
    rw [place?, hnorm]
    rfl
  rw [lt_iff_of_place hzero hplace]
  rcases Nat.eq_zero_or_pos b with rfl | hb
  · rw [single.value_zero] at hlow
    exact absurd (zpow_pos two_pos _) hlow.not_gt
  · exact_mod_cast hb

theorem unitRow_of_finite : unitRow row = row.map (· * (1.0 / norm row)) :=
  if_pos (zero_lt_norm hs ha)

omit hs ha in
theorem ofSingle_one : ∃ k, ofSingle 1.0 = .finite false k ∧ single.value k = 1 := by
  have hvalue := Format.value_canonical (f := single) (j := 126) (m := 2 ^ 23) (.inr le_rfl)
    (by decide)
  refine ⟨126 * 2 ^ single.fractionBits + 2 ^ 23, by decide +kernel, ?_⟩
  rw [hvalue, leastExponent_single]
  norm_num

/-- The square of the factor is near to the inverse of the squared norm. -/
theorem exists_inverse : ∃ i, ofSingle (1.0 / norm row) = .finite false i ∧
    Near 5 0 (single.value i ^ 2 * single.value a) 1 := by
  obtain ⟨b, hnorm, hlow, hhigh, hroot⟩ := exists_norm hs ha
  obtain ⟨one, hone, hvalue⟩ := ofSingle_one
  have hpos : 0 < single.value b := (zpow_pos two_pos _).trans_le hlow
  have hb : b ≠ 0 := by
    rintro rfl
    rw [single.value_zero] at hpos
    exact lt_irrefl _ hpos
  obtain ⟨i, hi, hquotient⟩ := ofSingle_div hone hnorm hb
  rw [hvalue] at hi
  have hnear := hi.near_zero (by
    rw [le_div_iff₀ hpos]
    norm_num
    linarith)
  have hi0 := single.value_nonneg i
  -- a norm is the root of at least the least value, so that its inverse does not overflow
  have hfinite : i < single.infinity := by
    have hinverse : 1 / single.value b ≤ 2 ^ 76 := by
      rw [div_le_iff₀ hpos]
      norm_num at hlow ⊢
      linarith
    have h := hnear.left
    rw [add_zero, pow_one, growth] at h
    refine lt_infinity_of_value ?_
    norm_num at h hinverse ⊢
    linarith
  refine ⟨i, ?_, ?_⟩
  · rw [hquotient, Bool.xor_self, number_of_lt false hfinite]
  · have hfactors := (hnear.mul hnear hi0 (by positivity) hi0 (by positivity)).mul hroot.symm
      (by positivity) (by positivity) (single.value_nonneg a) (sq_nonneg _)
    have hcancel : 1 / single.value b * (1 / single.value b) * single.value b ^ 2 = 1 := by
      field_simp
    rwa [hcancel, ← pow_two] at hfactors

end Factor

/-! ### Scaled rows -/

section Scaled
variable {row : Row} {a i : Nat} (hlength : row.length ≤ 1024)
  (hfinite : ∀ x ∈ row, x.isFinite = true)
  (hs : ofSingle (squaredNorm row) = .finite false a)

include hfinite hs in
theorem near_squaredNorm : Near (row.length + 3) ((2 * row.length + 3) * tiny) (single.value a)
    (sumOfSquares row) := by
  obtain ⟨k, hk, hnear⟩ := approximates_squaredNorm hfinite
  have hka : k = a := by
    rw [hs, Format.number] at hk
    split at hk
    · cases hk
      rfl
    · cases hk
  rwa [hka] at hnear

variable (hi : Near 5 0 (single.value i ^ 2 * single.value a) 1)
include hlength hfinite hs hi

/-- The scaled row is not great, even if the squared norm is hardly more than slack. -/
theorem scaled_le (ha : a ≠ 0) : single.value i ^ 2 * sumOfSquares row ≤ (2 ^ 7) ^ 2 := by
  have hn : (row.length : ℚ) ≤ 1024 := by exact_mod_cast hlength
  have hleast := tiny_le_value (Nat.pos_of_ne_zero ha)
  have hgrowth : growth ^ (row.length + 3) ≤ 2 := growth_pow_le_two (by omega)
  have hslack : (2 * row.length + 3) * tiny ≤ 2051 * single.value a :=
    mul_le_mul (by linarith) hleast tiny_pos.le (by norm_num)
  have hsum : sumOfSquares row ≤ 4104 * single.value a :=
    calc sumOfSquares row
        ≤ (single.value a + (2 * row.length + 3) * tiny) * growth ^ (row.length + 3) :=
          (near_squaredNorm hfinite hs).right
      _ ≤ (single.value a + 2051 * single.value a) * 2 :=
          mul_le_mul (by linarith) hgrowth (growth_pow_nonneg _) (by linarith [tiny_pos])
      _ = 4104 * single.value a := by ring
  have hone : single.value i ^ 2 * single.value a ≤ 2 := by
    have h := hi.left
    have hfive : growth ^ 5 ≤ 2 := growth_pow_le_two (by decide)
    linarith
  calc single.value i ^ 2 * sumOfSquares row
      ≤ single.value i ^ 2 * (4104 * single.value a) :=
        mul_le_mul_of_nonneg_left hsum (sq_nonneg _)
    _ = 4104 * (single.value i ^ 2 * single.value a) := by ring
    _ ≤ (2 ^ 7) ^ 2 := by linarith

omit hlength hfinite hs hi in
/-- No component is greater than the root of the sum of all squares. -/
theorem component_le {r : ℚ} (hr : 0 ≤ r) (h : single.value i ^ 2 * sumOfSquares row ≤ r ^ 2)
    {x : Float32} (hx : x ∈ row) : absValue x * single.value i ≤ r := by
  refine le_of_sq_le_sq ?_ hr
  calc (absValue x * single.value i) ^ 2 = single.value i ^ 2 * absValue x ^ 2 := by ring
    _ ≤ single.value i ^ 2 * sumOfSquares row :=
      mul_le_mul_of_nonneg_left (sq_absValue_le hx) (sq_nonneg _)
    _ ≤ r ^ 2 := h

/-- Each component is scaled with one rounding, and stays finite. -/
theorem exists_component (ha : a ≠ 0) {inverse : Float32}
    (hinverse : ofSingle inverse = .finite false i) {x : Float32} (hx : x ∈ row) :
    (x * inverse).isFinite = true ∧
      Near 1 tiny (absValue (x * inverse)) (absValue x * single.value i) := by
  have hle := component_le (by positivity) (scaled_le hlength hfinite hs hi ha) hx
  obtain ⟨negative, b, hb⟩ := isFinite_iff.1 (hfinite x hx)
  obtain ⟨k, hk, hproduct⟩ := ofSingle_mul hb hinverse
  rw [absValue_of_finite hb] at hle ⊢
  have hnear := hk.near (mul_nonneg (single.value_nonneg b) (single.value_nonneg i))
  have hfinite : k < single.infinity := by
    have h := hnear.left
    rw [pow_one, growth, tiny] at h
    refine lt_infinity_of_value ?_
    norm_num at h hle ⊢
    linarith
  rw [number_of_lt _ hfinite] at hproduct
  rw [absValue_of_finite hproduct]
  exact ⟨isFinite_iff.2 ⟨_, _, hproduct⟩, hnear⟩

/-- If the squared norm has its leading bit, the exact sum of squares of the scaled row is near to
one. -/
theorem near_scaled (hnormal : (2 : ℚ) ^ (-126 : Int) ≤ single.value a) :
    Near (row.length + 8) (1 / 2000) (single.value i ^ 2 * sumOfSquares row) 1 := by
  have hn : (row.length : ℚ) ≤ 1024 := by exact_mod_cast hlength
  have hsquare : 0 ≤ single.value i ^ 2 := sq_nonneg _
  have hfive : growth ^ 5 ≤ 2 := growth_pow_le_two (by decide)
  -- the slack is scaled with the row, and stays small since the squared norm has its leading bit
  have hslack : (2 * row.length + 3) * tiny * single.value i ^ 2 ≤ 1 / 2000 := by
    have hone : single.value i ^ 2 * 2 ^ (-126 : Int) ≤ 2 :=
      calc single.value i ^ 2 * 2 ^ (-126 : Int)
          ≤ single.value i ^ 2 * single.value a := mul_le_mul_of_nonneg_left hnormal hsquare
        _ ≤ (1 + 0) * growth ^ 5 := hi.left
        _ ≤ 2 := by linarith
    have hunit : tiny * single.value i ^ 2 ≤ 1 / 2 ^ 22 := by
      rw [tiny]
      norm_num at hone ⊢
      linarith
    calc (2 * row.length + 3) * tiny * single.value i ^ 2
        = (2 * row.length + 3) * (tiny * single.value i ^ 2) := by ring
      _ ≤ 2051 * (1 / 2 ^ 22) :=
        mul_le_mul (by linarith) hunit (mul_nonneg tiny_pos.le hsquare) (by norm_num)
      _ ≤ 1 / 2000 := by norm_num
  have hnonneg : 0 ≤ (2 * row.length + 3) * tiny * single.value i ^ 2 := by
    have := tiny_pos.le
    positivity
  have hscaled := ((near_squaredNorm hfinite hs).symm.mul_right hsquare).trans
    (mul_comm (single.value a) _ ▸ hi) hnonneg le_rfl
  rw [mul_comm (sumOfSquares row), add_zero] at hscaled
  exact hscaled.mono (add_nonneg (mul_nonneg hsquare (sumOfSquares_nonneg row)) hnonneg)
    (add_nonneg zero_le_one hnonneg) le_rfl hslack

/-- So is the exact sum of squares of the row that is scaled with rounding. -/
theorem near_scaledRow (hnormal : (2 : ℚ) ^ (-126 : Int) ≤ single.value a) {inverse : Float32}
    (hinverse : ofSingle inverse = .finite false i) :
    Near (row.length + 10) (1 / 1000) (sumOfSquares (row.map (· * inverse))) 1 := by
  have ha := ne_zero_of_normal hnormal
  have hn : (row.length : ℚ) ≤ 1024 := by exact_mod_cast hlength
  have hscaled := near_scaled hlength hfinite hs hi hnormal
  have hsquare : single.value i ^ 2 * sumOfSquares row ≤ 2 ^ 2 := by
    have hgrowth : growth ^ (row.length + 8) ≤ 2 := growth_pow_le_two (by omega)
    have h := hscaled.left
    linarith
  have hsquares := Near.sum fun x hx =>
    (exists_component hlength hfinite hs hi ha hinverse hx).2.sq (absValue_nonneg _)
      (mul_nonneg (absValue_nonneg x) (single.value_nonneg i)) (component_le two_pos.le hsquare hx)
  have hexact : (row.map fun x => (absValue x * single.value i) ^ 2).sum =
      single.value i ^ 2 * sumOfSquares row := by
    simp only [mul_pow, List.sum_map_mul_right, sumOfSquares, mul_comm]
  have hslack : row.length * (5 * tiny) + 1 / 2000 ≤ 1 / 1000 := by
    have := mul_le_mul_of_nonneg_right hn (show 0 ≤ 5 * tiny by linarith [tiny_pos])
    rw [tiny] at this ⊢
    norm_num at this ⊢
    linarith
  have hnonneg : 0 ≤ row.length * (5 * tiny) := by
    have := tiny_pos.le
    positivity
  rw [hexact] at hsquares
  have htotal := hsquares.trans hscaled hnonneg (by norm_num)
  rw [show (fun x => absValue (x * inverse) ^ 2) =
    (fun x => absValue x ^ 2) ∘ (· * inverse) from rfl, ← List.map_map] at htotal
  exact htotal.mono (add_nonneg (sumOfSquares_nonneg _) (by linarith)) (by linarith) (by omega)
    hslack

end Scaled

/-! ### The norm of a unit row -/

/-- The norm is at most a hundredth off one. -/
def HasUnitNorm (row : Row) : Prop :=
  ∃ k, ofSingle (norm row) = .finite false k ∧ 99 / 100 ≤ single.value k ∧
    single.value k ≤ 101 / 100

section Norm
variable {row : Row} (hlength : row.length ≤ 1024) (hfinite : ∀ x ∈ row, x.isFinite = true)
include hlength hfinite

/-- What is near to one has a root near to one. -/
theorem hasUnitNorm_of_near (hnear : Near (row.length + 10) (1 / 1000) (sumOfSquares row) 1) :
    HasUnitNorm row := by
  have htiny := tiny_pos.le
  have hslack : (2 * row.length + 3) * tiny + 1 / 1000 ≤ 1 / 900 := by
    have h := slack_le hlength
    norm_num at h ⊢
    linarith
  obtain ⟨a, ha, hsquare⟩ := approximates_squaredNorm hfinite
  have hsquare' := (hsquare.trans hnear (by positivity) (by norm_num)).mono
    (add_nonneg (single.value_nonneg a) (by positivity)) (by positivity) le_rfl hslack
  have hgrowth : ∀ {n}, n ≤ 2 * row.length + 16 → growth ^ n ≤ 1 + 1 / 2000 := by
    intro n hle
    have hle' : (n : ℚ) ≤ 2064 := by exact_mod_cast hle.trans (by omega)
    refine (growth_pow_le (by omega)).trans ?_
    linarith
  have hfinite : a < single.infinity := by
    have h := hsquare'.left
    have := mul_le_mul_of_nonneg_left (hgrowth (by omega : row.length + 3 + (row.length + 10) ≤ _))
      (show (0 : ℚ) ≤ 1 + 1 / 900 by norm_num)
    refine lt_infinity_of_value ?_
    norm_num at h this ⊢
    linarith
  rw [number_of_lt false hfinite] at ha
  obtain ⟨k, hroot, hnorm⟩ := ofSingle_sqrt ha
  have htotal := hroot.trans hsquare' le_rfl (by norm_num)
  have hk := single.value_nonneg k
  have hpow := hgrowth (by omega : 3 + (row.length + 3 + (row.length + 10)) ≤ _)
  have hlow : 99 / 100 ≤ single.value k := by
    have h := htotal.right
    have := mul_le_mul_of_nonneg_left hpow
      (show (0 : ℚ) ≤ single.value k ^ 2 + (0 + 1 / 900) by positivity)
    refine le_of_sq_le_sq ?_ hk
    norm_num at h this ⊢
    linarith
  have hhigh : single.value k ≤ 101 / 100 := by
    have h := htotal.left
    have := mul_le_mul_of_nonneg_left hpow (show (0 : ℚ) ≤ 1 + (0 + 1 / 900) by norm_num)
    refine le_of_sq_le_sq ?_ (by norm_num)
    norm_num at h this ⊢
    linarith
  refine ⟨k, ?_, hlow, hhigh⟩
  rw [← number_of_lt false (lt_infinity_of_value (hhigh.trans_lt (by norm_num)))]
  exact hnorm

/-- **A unit row has a norm near to one**, if the squared norm has its leading bit. -/
theorem hasUnitNorm_unitRow {a : Nat} (hs : ofSingle (squaredNorm row) = .finite false a)
    (hnormal : (2 : ℚ) ^ (-126 : Int) ≤ single.value a) : HasUnitNorm (unitRow row) := by
  have ha : a ≠ 0 := ne_zero_of_normal hnormal
  obtain ⟨i, hinverse, hi⟩ := exists_inverse hs ha
  have hnear := near_scaledRow hlength hfinite hs hi hnormal hinverse
  have hscaled : (row.map (· * (1.0 / norm row))).length = row.length := List.length_map _
  rw [← hscaled] at hnear
  rw [unitRow_of_finite hs ha]
  exact hasUnitNorm_of_near (hscaled.trans_le hlength) (List.forall_mem_map.2 fun x hx =>
    (exists_component hlength hfinite hs hi ha hinverse hx).1) hnear

end Norm

end NeighborSearch
