import NeighborSearch.Proofs.UnitRow

/-! What becomes of the finite rows of a buffer that is normalized.

A row is scaled by the inverse of its norm, and the norm is the root of a sum that is rounded to
single precision. If the exact sum of squares is in the range of the values with a leading bit, up
to a thousandth at either end, the row becomes a unit row. Beyond the range the rounded sum is
infinite, so the factor and all components are zero (`unitRow_of_infinite`). If all squares are
rounded to zero, the row is left as it is, whether its components are zeros or not
(`unitRow_of_zero`). -/
namespace NeighborSearch
open Binary

variable {row : Row}

/-! ### Sums that vanish or overflow -/

theorem unitRow_of_zero (hs : ofSingle (squaredNorm row) = .finite false 0) :
    unitRow row = row := by
  obtain ⟨k, hroot, hnorm⟩ := ofSingle_sqrt hs
  have hk : k = 0 := by
    by_contra hk
    have hpos := single.value_strictMono (Nat.pos_of_ne_zero hk)
    have h := hroot.left
    rw [single.value_zero] at hpos h
    exact absurd (pow_pos hpos 2) (by simpa using h)
  have hzero : place? 0.0 = some 0 := by decide +kernel
  have hplace : place? (norm row) = some 0 := by
    rw [place?, norm, hnorm, hk]
    rfl
  refine if_neg ?_
  rw [lt_iff_of_place hzero hplace]
  exact lt_irrefl 0

/-- The inverse of an infinite norm is zero, and so is all that is scaled by it. -/
theorem unitRow_of_infinite (hfinite : ∀ x ∈ row, x.isFinite = true)
    (hs : ofSingle (squaredNorm row) = .infinite false) :
    ∀ y ∈ unitRow row, y.isFinite = true ∧ absValue y = 0 := by
  have hnorm : ofSingle (norm row) = .infinite false := ofSingle_sqrt_infinite hs
  have hpos : 0.0 < norm row := by
    have hzero : place? 0.0 = some 0 := by decide +kernel
    have hplace : place? (norm row) = some single.infinity := by
      rw [place?, hnorm]
      rfl
    rw [lt_iff_of_place hzero hplace, infinity_single]
    decide
  have hunit : unitRow row = row.map (· * (1.0 / norm row)) := if_pos hpos
  obtain ⟨one, hone, -⟩ := ofSingle_one
  have hinverse := ofSingle_div_infinite hone hnorm
  rw [hunit, List.forall_mem_map]
  intro x hx
  obtain ⟨negative, b, hb⟩ := isFinite_iff.1 (hfinite x hx)
  obtain ⟨k, hk, hproduct⟩ := ofSingle_mul hb hinverse
  rw [single.value_zero, mul_zero, ← single.value_zero] at hk
  rw [hk.unique (single.rounds_value 0), number_of_lt _ (by decide)] at hproduct
  exact ⟨isFinite_iff.2 ⟨_, _, hproduct⟩, by rw [absValue_of_finite hproduct, single.value_zero]⟩

/-- A finite row stays finite, whatever its sum of squares is. -/
theorem isFinite_unitRow (hlength : row.length ≤ 1024) (hfinite : ∀ x ∈ row, x.isFinite = true) :
    ∀ y ∈ unitRow row, y.isFinite = true := by
  obtain ⟨k, hk, -⟩ := approximates_squaredNorm hfinite
  rcases lt_or_ge k single.infinity with hlt | hle
  · rw [number_of_lt false hlt] at hk
    by_cases hzero : k = 0
    · rw [unitRow_of_zero (hzero ▸ hk)]
      exact hfinite
    · obtain ⟨i, hinverse, hi⟩ := exists_inverse hk hzero
      rw [unitRow_of_finite hk hzero, List.forall_mem_map]
      exact fun x hx => (exists_component hlength hfinite hk hi hzero hinverse hx).1
  · rw [number_of_le false hle] at hk
    exact fun y hy => (unitRow_of_infinite hfinite hk y hy).1

/-! ### Ranges of exact sums -/

/-- The square of the root of half the least value is half-way between it and zero. -/
theorem mul_self_of_small {x : Float32} (hx : x.isFinite = true)
    (hle : absValue x ≤ 2 ^ (-75 : Int)) : x * x = 0.0 := by
  obtain ⟨negative, a, ha⟩ := isFinite_iff.1 hx
  obtain ⟨k, hk, hproduct⟩ := ofSingle_mul ha ha
  rw [absValue_of_finite ha] at hle
  -- a midpoint goes to the even neighbor, which is zero
  have hzero : single.Rounds (2 ^ (-75 : Int) * 2 ^ (-75 : Int)) 0 := by
    refine ⟨fun j hj => absurd hj (Nat.not_lt_zero j), .inr ⟨?_, rfl⟩⟩
    have hexponent : single.exponent 0 = -149 := rfl
    rw [Format.midpoint, single.value_zero, hexponent]
    norm_num
  have hnonneg := single.value_nonneg a
  obtain rfl : k = 0 := Nat.le_zero.1
    (hk.mono hzero (mul_le_mul hle hle hnonneg (zpow_pos two_pos _).le))
  rw [Bool.xor_self] at hproduct
  rw [← toSingle_of_finite hproduct]
  decide +kernel

theorem squaredNorm_of_small (hfinite : ∀ x ∈ row, x.isFinite = true)
    (hsmall : ∀ x ∈ row, absValue x ≤ 2 ^ (-75 : Int)) :
    ofSingle (squaredNorm row) = .finite false 0 := by
  have hsum : squaredNorm row = 0.0 := Kernel.laneSumFrom_zero fun i hi _ =>
    mul_self_of_small (hfinite _ (List.getElem_mem hi)) (hsmall _ (List.getElem_mem hi))
  rw [hsum]
  decide +kernel

section Range
variable (hlength : row.length ≤ 1024) (hfinite : ∀ x ∈ row, x.isFinite = true)
include hlength hfinite

/-- All roundings of a squared norm together make a part of less than a thousandth. -/
theorem exists_squaredNorm : ∃ k, ofSingle (squaredNorm row) = single.number false k ∧
    single.value k ≤ (sumOfSquares row + 2 ^ (-137 : Int)) * (1 + 1 / 4000) ∧
    sumOfSquares row ≤ (single.value k + 2 ^ (-137 : Int)) * (1 + 1 / 4000) := by
  obtain ⟨k, hk, hnear⟩ := approximates_squaredNorm hfinite
  have hn : (row.length : ℚ) ≤ 1024 := by exact_mod_cast hlength
  have hgrowth : growth ^ (row.length + 3) ≤ 1 + 1 / 4000 := by
    refine (growth_pow_le (by omega)).trans ?_
    push_cast
    linarith
  have hslack := slack_le hlength
  have hbound : ∀ {x y : ℚ}, 0 ≤ y →
      x ≤ (y + (2 * row.length + 3) * tiny) * growth ^ (row.length + 3) →
        x ≤ (y + 2 ^ (-137 : Int)) * (1 + 1 / 4000) := fun hy h =>
    h.trans (mul_le_mul (by linarith) hgrowth (growth_pow_nonneg _)
      (add_nonneg hy (zpow_pos two_pos _).le))
  exact ⟨k, hk, hbound (sumOfSquares_nonneg row) hnear.left,
    hbound (single.value_nonneg k) hnear.right⟩

theorem squaredNorm_of_great (h : 2 ^ 128 * (1001 / 1000) ≤ sumOfSquares row) :
    ofSingle (squaredNorm row) = .infinite false := by
  obtain ⟨k, hk, -, hle⟩ := exists_squaredNorm hlength hfinite
  have hinfinite : single.infinity ≤ k := by
    rw [← single.value_strictMono.le_iff_le, value_infinity]
    norm_num at h hle ⊢
    linarith
  rw [hk, number_of_le false hinfinite]

theorem squaredNorm_of_between (hlow : 2 ^ (-126 : Int) * (1001 / 1000) ≤ sumOfSquares row)
    (hhigh : sumOfSquares row ≤ 2 ^ 128 * (999 / 1000)) :
    ∃ k, ofSingle (squaredNorm row) = .finite false k ∧
      (2 : ℚ) ^ (-126 : Int) ≤ single.value k := by
  obtain ⟨k, hk, hle, hge⟩ := exists_squaredNorm hlength hfinite
  have hlt : k < single.infinity := by
    refine lt_infinity_of_value ?_
    norm_num at hle hhigh ⊢
    linarith
  refine ⟨k, by rw [hk, number_of_lt false hlt], ?_⟩
  norm_num at hlow hge ⊢
  linarith

end Range

/-! ### Normalized buffers -/

/-- What becomes of a finite row. -/
structure Normalized (row out : Row) : Prop where
  isFinite : ∀ y ∈ out, y.isFinite = true
  hasUnitNorm : 2 ^ (-126 : Int) * (1001 / 1000) ≤ sumOfSquares row →
    sumOfSquares row ≤ 2 ^ 128 * (999 / 1000) → HasUnitNorm out
  vanishes : 2 ^ 128 * (1001 / 1000) ≤ sumOfSquares row → ∀ y ∈ out, absValue y = 0
  unchanged : (∀ x ∈ row, absValue x ≤ 2 ^ (-75 : Int)) → out = row

theorem normalized_unitRow (hlength : row.length ≤ 1024) (hfinite : ∀ x ∈ row, x.isFinite = true) :
    Normalized row (unitRow row) where
  isFinite := isFinite_unitRow hlength hfinite
  hasUnitNorm hlow hhigh := by
    obtain ⟨k, hk, hnormal⟩ := squaredNorm_of_between hlength hfinite hlow hhigh
    exact hasUnitNorm_unitRow hlength hfinite hk hnormal
  vanishes h y hy :=
    (unitRow_of_infinite hfinite (squaredNorm_of_great hlength hfinite h) y hy).2
  unchanged h := unitRow_of_zero (squaredNorm_of_small hfinite h)

/-- **Normalization of a buffer of whole rows**: it gives a buffer of as many rows, and each finite
row becomes finite, a unit row if its sum of squares is in range, zeros if the sum is too great, and
itself if no square is more than zero. -/
theorem normalizedRows?_normalized {width : Nat} {values : Array Float32} (hpos : 1 ≤ width)
    (hle : width ≤ 1024) (hwhole : width ∣ values.size) :
    ∃ out, normalizedRows? width values = some out ∧ out.size = values.size ∧
      List.Forall₂ (fun row out => (∀ x ∈ row, x.isFinite = true) → Normalized row out)
        (rowsOf width values) (rowsOf width out) := by
  have hlength : ∀ row ∈ (rowsOf width values).map unitRow, row.length = width := by
    refine List.forall_mem_map.2 fun row hrow => ?_
    rw [length_unitRow, length_of_mem_rowsOf hrow]
  have hsize : (rowsOf width values).length * width = values.size := by
    rw [rowsOf, List.length_map, List.length_range, Nat.div_mul_cancel hwhole]
  refine ⟨((rowsOf width values).map unitRow).flatten.toArray, ?_, ?_, ?_⟩
  · rw [normalizedRows?, if_neg (by omega)]
    simp only [List.length_map, hsize, Array.extract_empty_of_start_eq_stop, Array.append_empty]
  · rw [List.size_toArray, length_flatten_rows hlength, List.length_map, hsize]
  · rw [rowsOf_flatten hpos hlength, List.forall₂_map_right_iff, List.forall₂_same]
    intro row hrow hfinite
    exact normalized_unitRow (by rw [length_of_mem_rowsOf hrow]; exact hle) hfinite

/-- A row in range, a row of zeros and a row that is too great. -/
def mixedRows : Array Float32 := #[3, 4, 0.0, -0.0, 1e30, 0.0]

theorem normalizedRows?_normalized_mixedRows : ∃ out unit zeros,
    normalizedRows? 2 mixedRows = some out ∧ rowsOf 2 out = [unit, [0.0, -0.0], zeros] ∧
      HasUnitNorm unit ∧ ∀ y ∈ zeros, absValue y = 0 := by
  obtain ⟨out, hout, -, hrows⟩ :=
    @normalizedRows?_normalized 2 mixedRows (by decide) (by decide) (by decide)
  have hcut : rowsOf 2 mixedRows = [[3, 4], [0.0, -0.0], [1e30, 0.0]] := by decide +kernel
  rw [hcut] at hrows
  generalize hcut' : rowsOf 2 out = rows at hrows
  obtain _ | @⟨_, unit, _, _, hunit, hrows⟩ := hrows
  obtain _ | @⟨_, same, _, _, hsame, hrows⟩ := hrows
  obtain _ | @⟨_, zeros, _, _, hzeros, hrows⟩ := hrows
  cases hrows
  have hthree : absValue 3 = (0xc00000 : Nat) * 2 ^ (-22 : Int) :=
    absValue_of_finite (show ofSingle 3 = .finite false 0x40400000 by decide +kernel)
  have hfour : absValue 4 = (0x800000 : Nat) * 2 ^ (-21 : Int) :=
    absValue_of_finite (show ofSingle 4 = .finite false 0x40800000 by decide +kernel)
  have hgreat : absValue 1e30 = (0xc9f2ca : Nat) * 2 ^ (76 : Int) :=
    absValue_of_finite (show ofSingle 1e30 = .finite false 0x7149f2ca by decide +kernel)
  have hzero : ∀ x ∈ ([0.0, -0.0] : Row), absValue x = 0 := by
    have hplus : absValue 0.0 = single.value 0 :=
      absValue_of_finite (show ofSingle 0.0 = .finite false 0 by decide +kernel)
    have hminus : absValue (-0.0) = single.value 0 :=
      absValue_of_finite (show ofSingle (-0.0) = .finite true 0 by decide +kernel)
    rw [single.value_zero] at hplus hminus
    simp [hplus, hminus]
  refine ⟨out, unit, zeros, hout, ?_, ?_, ?_⟩
  · rw [(hsame (by decide +kernel)).unchanged fun x hx => (hzero x hx).trans_le (by positivity)]
      at hcut'
    exact hcut'
  · refine (hunit (by decide +kernel)).hasUnitNorm ?_ ?_
    · norm_num [sumOfSquares, hthree, hfour]
    · norm_num [sumOfSquares, hthree, hfour]
  · refine (hzeros (by decide +kernel)).vanishes ?_
    norm_num [sumOfSquares, hgreat, hzero]

/-- A finite row whose square overflows becomes zero, and one whose square vanishes is left. -/
theorem normalizedRows?_not_unit :
    normalizedRows? 1 #[1e30, 1e-30] = some #[0.0, 1e-30] ∧
      (1e30 : Float32).isFinite = true ∧ (1e-30 : Float32).isFinite = true ∧
      0.0 < (1e30 : Float32) ∧ 0.0 < (1e-30 : Float32) ∧
      ¬ HasUnitNorm [0.0] ∧ ¬ HasUnitNorm [1e-30] := by
  have hnorm : ∀ {row : Row}, ofSingle (norm row) = .finite false 0 → ¬ HasUnitNorm row := by
    rintro row h ⟨k, hk, hlow, -⟩
    rw [h] at hk
    cases hk
    rw [single.value_zero] at hlow
    norm_num at hlow
  exact ⟨by decide +kernel, by decide +kernel, by decide +kernel, by decide +kernel,
    by decide +kernel, hnorm (by decide +kernel), hnorm (by decide +kernel)⟩

end NeighborSearch
