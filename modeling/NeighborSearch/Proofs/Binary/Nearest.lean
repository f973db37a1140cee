import NeighborSearch.Binary.Rounding
import NeighborSearch.Proofs.Binary.Value

/-! Rounding of exact quotients.

`Format.nearest` scales a quotient so that the unit of the last bit becomes 1, and rounds it to a
whole number (`isRound_roundDiv`). As the scaled quotient has the size of a significand, what comes
out is the magnitude that the quotient rounds to (`rounds_of_isRound`, `nearest_of_rounds`). -/
namespace NeighborSearch.Binary
variable {num den : Nat}

/-! ### Powers in whole numbers -/

/-- A power is a quotient of two whole ones, at least one of which is 1. -/
theorem zpow_eq_div {b : ℚ} (hb : b ≠ 0) (e : Int) : b ^ e = b ^ e.toNat / b ^ (-e).toNat := by
  rw [← zpow_natCast, ← zpow_natCast, ← zpow_sub₀ hb]
  congr 1
  omega

theorem scaled_le_iff {b : Nat} (hb : 0 < b) (e : Int) :
    den * b ^ e.toNat ≤ num * b ^ (-e).toNat ↔ (den : ℚ) * (b : ℚ) ^ e ≤ num := by
  have hb' : (0 : ℚ) < b := by exact_mod_cast hb
  have hpow : (0 : ℚ) < (b : ℚ) ^ (-e).toNat := pow_pos hb' _
  rw [zpow_eq_div hb'.ne', ← mul_div_assoc, div_le_iff₀ hpow]
  exact_mod_cast Iff.rfl

/-! ### Whole numbers -/

theorem div_eq_add_mod_div (num : Nat) (hden : 0 < den) :
    (num : ℚ) / den = (num / den : Nat) + (num % den : Nat) / (den : ℚ) := by
  have hden' : (den : ℚ) ≠ 0 := by exact_mod_cast hden.ne'
  rw [eq_comm, ← eq_sub_iff_add_eq, ← sub_div, eq_div_iff hden', eq_sub_iff_add_eq]
  exact_mod_cast Nat.div_add_mod' num den

/-- The whole number nearest to `y`, a half going to the even one. -/
structure IsRound (y : ℚ) (m : Nat) : Prop where
  above : (m : ℚ) - 1 / 2 < y ∨ (m : ℚ) - 1 / 2 = y ∧ m % 2 = 0
  below : y < m + 1 / 2 ∨ y = m + 1 / 2 ∧ m % 2 = 0

theorem isRound_natCast (m : Nat) : IsRound m m :=
  ⟨.inl (by linarith), .inl (by linarith)⟩

namespace IsRound
variable {y : ℚ} {m n : Nat}

theorem sub_half_le (h : IsRound y m) : (m : ℚ) - 1 / 2 ≤ y :=
  h.above.elim le_of_lt fun h => h.1.le

theorem le_add_half (h : IsRound y m) : y ≤ m + 1 / 2 :=
  h.below.elim le_of_lt fun h => h.1.le

/-- Rounding does not pass a whole number. -/
theorem le_of_lt (h : IsRound y m) (hy : y < n) : m ≤ n := by
  by_contra hlt
  have hlt' : (n : ℚ) + 1 ≤ m := by exact_mod_cast not_le.1 hlt
  have := h.sub_half_le
  linarith

theorem le_of_le (h : IsRound y m) (hy : n ≤ y) : n ≤ m := by
  by_contra hlt
  have hlt' : (m : ℚ) + 1 ≤ n := by exact_mod_cast not_le.1 hlt
  have := h.le_add_half
  linarith

end IsRound

theorem isRound_roundDiv (num : Nat) (hden : 0 < den) :
    IsRound ((num : ℚ) / den) (roundDiv .toEven num den) := by
  have hden' : (0 : ℚ) < den := by exact_mod_cast hden
  have hnonneg : (0 : ℚ) ≤ (num % den : Nat) / (den : ℚ) := by positivity
  have hlt : (num % den : Nat) / (den : ℚ) < 1 := by
    rw [div_lt_one hden']
    exact_mod_cast Nat.mod_lt num hden
  rw [roundDiv, div_eq_add_mod_div num hden]
  generalize hr : ((num % den : Nat) : ℚ) / den = r at *
  have hhalf : r < 1 / 2 ↔ 2 * (num % den) < den := by
    rw [← hr, div_lt_div_iff₀ hden' two_pos]
    norm_cast
    omega
  have hhalf' : 1 / 2 < r ↔ den < 2 * (num % den) := by
    rw [← hr, div_lt_div_iff₀ two_pos hden']
    norm_cast
    omega
  split
  · rename_i h
    have := hhalf.2 h
    exact ⟨.inl (by linarith), .inl (by linarith)⟩
  · rename_i hnot
    have hge : 1 / 2 ≤ r := not_lt.1 (mt hhalf.1 hnot)
    split
    · rename_i h
      have := hhalf'.2 h
      refine ⟨.inl ?_, .inl ?_⟩ <;> push_cast <;> linarith
    · rename_i hnot'
      have hle : r ≤ 1 / 2 := not_lt.1 (mt hhalf'.1 hnot')
      obtain rfl : r = 1 / 2 := le_antisymm hle hge
      rw [Tie.settle]
      rcases Nat.mod_two_eq_zero_or_one (num / den) with heven | hodd
      · rw [heven]
        exact ⟨.inl (by push_cast; linarith), .inr ⟨by push_cast; ring, heven⟩⟩
      · rw [hodd]
        exact ⟨.inr ⟨by push_cast; ring, by omega⟩, .inl (by push_cast; linarith)⟩

/-! ### The size of a quotient -/

theorem zpow_floorLog2_le (hnum : 0 < num) (hden : 0 < den) :
    (2 : ℚ) ^ floorLog2 num den ≤ num / den ∧ (num : ℚ) / den < 2 ^ (floorLog2 num den + 1) := by
  have hden' : (0 : ℚ) < den := by exact_mod_cast hden
  have hlow : ∀ {n : Nat}, 0 < n → (2 : ℚ) ^ (n.log2 : Int) ≤ n := by
    intro n hn
    rw [zpow_natCast]
    exact_mod_cast Nat.log2_self_le hn.ne'
  have hhigh : ∀ {n : Nat}, (n : ℚ) < 2 ^ ((n.log2 : Int) + 1) := by
    intro n
    rw [show (n.log2 : Int) + 1 = ((n.log2 + 1 : Nat) : Int) by push_cast; rfl, zpow_natCast]
    exact_mod_cast Nat.lt_log2_self
  -- the leading bits alone leave two candidates
  have hguess : (num : ℚ) / den < 2 ^ ((num.log2 : Int) - den.log2 + 1) ∧
      (2 : ℚ) ^ ((num.log2 : Int) - den.log2 - 1) ≤ num / den := by
    constructor
    · rw [div_lt_iff₀ hden']
      calc (num : ℚ) < 2 ^ ((num.log2 : Int) - den.log2 + 1) * 2 ^ (den.log2 : Int) := by
            rw [← zpow_add₀ two_ne_zero, show (num.log2 : Int) - den.log2 + 1 + den.log2 =
              num.log2 + 1 by ring]
            exact hhigh
        _ ≤ 2 ^ ((num.log2 : Int) - den.log2 + 1) * den :=
            mul_le_mul_of_nonneg_left (hlow hden) (by positivity)
    · rw [le_div_iff₀ hden']
      calc (2 : ℚ) ^ ((num.log2 : Int) - den.log2 - 1) * den
          ≤ 2 ^ ((num.log2 : Int) - den.log2 - 1) * 2 ^ ((den.log2 : Int) + 1) :=
            mul_le_mul_of_nonneg_left hhigh.le (by positivity)
        _ = 2 ^ (num.log2 : Int) := by
            rw [← zpow_add₀ two_ne_zero]
            congr 1
            ring
        _ ≤ num := hlow hnum
  have hle := @scaled_le_iff num den 2 two_pos ((num.log2 : Int) - den.log2)
  rw [floorLog2, show Nat.pow 2 = (2 ^ · : Nat → Nat) from rfl]
  split
  · rename_i h
    refine ⟨?_, hguess.1⟩
    rw [le_div_iff₀ hden', mul_comm]
    exact_mod_cast hle.1 h
  · rename_i h
    refine ⟨hguess.2, ?_⟩
    rw [sub_add_cancel, div_lt_iff₀ hden', mul_comm]
    exact_mod_cast not_le.1 (mt hle.2 h)

/-! ### Values of a format -/

namespace Format
variable {f : Format} {j k m : Nat} {x y : ℚ}

/-- A value as a quotient of whole numbers. -/
theorem value_eq_div (f : Format) (k : Nat) :
    f.value k = ((f.significand k * 2 ^ (f.exponent k).toNat : Nat) : ℚ) /
      (2 ^ (-f.exponent k).toNat : Nat) := by
  rw [value, zpow_eq_div two_ne_zero]
  push_cast
  ring

/-- To round to a value is to round to a whole number of units of the last bit, if the scaled
number has the size of a significand. -/
theorem rounds_of_isRound (hf : 0 < f.fractionBits) (hx : x = y * 2 ^ (f.leastExponent + j))
    (hm : IsRound y m) (hlow : j = 0 ∨ (2 : ℚ) ^ f.fractionBits ≤ y)
    (hhigh : y < 2 * 2 ^ f.fractionBits) : f.Rounds x (j * 2 ^ f.fractionBits + m) := by
  have hunit : (0 : ℚ) < 2 ^ (f.leastExponent + j) := zpow_pos two_pos _
  have hm' : m ≤ 2 * 2 ^ f.fractionBits := hm.le_of_lt (by exact_mod_cast hhigh)
  have hj : j = 0 ∨ 2 ^ f.fractionBits ≤ m :=
    hlow.imp id fun hy => hm.le_of_le (by exact_mod_cast hy)
  have hparity : (j * 2 ^ f.fractionBits + m) % 2 = m % 2 := by
    obtain ⟨p, hp⟩ : ∃ p, f.fractionBits = p + 1 := ⟨f.fractionBits - 1, by omega⟩
    rw [hp, pow_succ, ← Nat.mul_assoc]
    omega
  have hvalue := value_canonical hj hm'
  rw [hx]
  refine Rounds.of_neighbor (fun i hi => ?_) ?_
  · rcases hlow with rfl | hy
    · -- below an exponent that is the least one, the unit is the same
      obtain ⟨n, rfl⟩ : ∃ n, m = n + 1 := ⟨m - 1, by omega⟩
      have hi' : i = 0 * 2 ^ f.fractionBits + n := by omega
      have hmid : f.midpoint i = ((n + 1 : Nat) - 1 / 2) * 2 ^ (f.leastExponent + (0 : Nat)) := by
        rw [midpoint, hi', value_canonical (.inl rfl) (by omega),
          exponent_canonical (.inl rfl) (by omega)]
        push_cast
        ring
      rw [hmid, hparity]
      exact hm.above.imp (fun h => mul_lt_mul_of_pos_right h hunit)
        (And.imp_left fun h => by rw [h])
    · rcases Nat.lt_or_ge (2 ^ f.fractionBits) m with hlt | hge
      · obtain ⟨n, rfl⟩ : ∃ n, m = n + 1 := ⟨m - 1, by omega⟩
        have hi' : i = j * 2 ^ f.fractionBits + n := by omega
        have hmid : f.midpoint i = ((n + 1 : Nat) - 1 / 2) * 2 ^ (f.leastExponent + j) := by
          rw [midpoint, hi', value_canonical (.inr (by omega)) (by omega),
            exponent_canonical (.inr (by omega)) (by omega)]
          push_cast
          ring
        rw [hmid, hparity]
        exact hm.above.imp (fun h => mul_lt_mul_of_pos_right h hunit)
          (And.imp_left fun h => by rw [h])
      · -- the significand is the least one, and nothing rounds up to it
        left
        calc f.midpoint i < f.value (j * 2 ^ f.fractionBits + m) :=
              f.midpoint_lt_value (by omega)
          _ = m * 2 ^ (f.leastExponent + j) := hvalue
          _ ≤ y * 2 ^ (f.leastExponent + j) := by
              refine mul_le_mul_of_nonneg_right ?_ hunit.le
              refine le_trans ?_ hy
              exact_mod_cast hge
  · rcases Nat.lt_or_eq_of_le hm' with hlt | rfl
    · have hmid : f.midpoint (j * 2 ^ f.fractionBits + m) =
          (m + 1 / 2) * 2 ^ (f.leastExponent + j) := by
        rw [midpoint, hvalue, exponent_canonical hj hlt]
        ring
      rw [hmid, hparity]
      exact hm.below.imp (fun h => mul_lt_mul_of_pos_right h hunit)
        (And.imp_left fun h => by rw [h])
    · left
      calc y * 2 ^ (f.leastExponent + j)
          < ((2 * 2 ^ f.fractionBits : Nat) : ℚ) * 2 ^ (f.leastExponent + j) := by
            refine mul_lt_mul_of_pos_right ?_ hunit
            exact_mod_cast hhigh
        _ = f.value (j * 2 ^ f.fractionBits + 2 * 2 ^ f.fractionBits) := hvalue.symm
        _ < _ := f.value_lt_midpoint _

theorem exists_rounds_nearest (hf : 0 < f.fractionBits) (num : Nat) (hden : 0 < den) :
    ∃ k, f.Rounds ((num : ℚ) / den) k ∧ f.nearest num den = min k f.infinity := by
  rcases Nat.eq_zero_or_pos num with rfl | hnum
  · refine ⟨0, ?_, (Nat.zero_min _).symm⟩
    rw [Nat.cast_zero, zero_div, ← f.value_zero]
    exact f.rounds_value 0
  · obtain ⟨hlow, hhigh⟩ := zpow_floorLog2_le hnum hden
    obtain ⟨j, hj⟩ : ∃ j : Nat, max (floorLog2 num den - f.fractionBits) f.leastExponent =
        f.leastExponent + j :=
      ⟨(max (floorLog2 num den - f.fractionBits) f.leastExponent - f.leastExponent).toNat, by omega⟩
    rw [nearest, if_neg hnum.ne']
    dsimp only
    rw [hj]
    generalize he : f.leastExponent + (j : Int) = e at *
    have hscaled : 0 < den * Nat.pow 2 e.toNat := Nat.mul_pos hden (Nat.two_pow_pos _)
    have hround := isRound_roundDiv (num * Nat.pow 2 (-e).toNat) hscaled
    have hden' : (0 : ℚ) < den := by exact_mod_cast hden
    have hunit : (0 : ℚ) < 2 ^ e := zpow_pos two_pos _
    have hquotient : ((num * Nat.pow 2 (-e).toNat : Nat) : ℚ) / (den * Nat.pow 2 e.toNat : Nat) =
        num / den / 2 ^ e := by
      rw [zpow_eq_div two_ne_zero]
      show ((num * 2 ^ (-e).toNat : Nat) : ℚ) / (den * 2 ^ e.toNat : Nat) = _
      push_cast
      field_simp
    rw [hquotient] at hround
    refine ⟨_, rounds_of_isRound (j := j) hf ?_ hround ?_ ?_, ?_⟩
    · rw [he, div_mul_cancel₀ _ hunit.ne']
    · rcases Nat.eq_zero_or_pos j with h0 | hpos
      · exact .inl h0
      · right
        have hexp : e + f.fractionBits = floorLog2 num den := by omega
        rw [le_div_iff₀ hunit, ← zpow_natCast, mul_comm, ← zpow_add₀ two_ne_zero, hexp]
        exact hlow
    · rw [div_lt_iff₀ hunit, ← zpow_natCast, mul_comm, ← mul_assoc, ← zpow_add_one₀ two_ne_zero,
        ← zpow_add₀ two_ne_zero]
      refine hhigh.trans_le (zpow_le_zpow_right₀ (by norm_num) ?_)
      omega
    · have hsteps : (e - f.leastExponent).toNat = j := by omega
      rw [hsteps]
      rfl

/-- Every number rounds to a magnitude, if no limit is set to it. -/
theorem exists_rounds (hf : 0 < f.fractionBits) (hx : 0 ≤ x) : ∃ k, f.Rounds x k := by
  obtain ⟨n, hn⟩ := Int.eq_ofNat_of_zero_le (Rat.num_nonneg.2 hx)
  obtain ⟨k, hk, -⟩ := exists_rounds_nearest hf n x.den_pos
  have hquotient : (n : ℚ) / x.den = x := by
    have hnum : (x.num : ℚ) = n := by exact_mod_cast hn
    rw [← hnum]
    exact x.num_div_den
  rw [hquotient] at hk
  exact ⟨k, hk⟩

/-- The nearest value, or infinity beyond the greatest one. -/
theorem nearest_of_rounds (hf : 0 < f.fractionBits) (hden : 0 < den)
    (h : f.Rounds ((num : ℚ) / den) k) : f.nearest num den = min k f.infinity := by
  obtain ⟨l, hl, heq⟩ := exists_rounds_nearest hf num hden
  rw [heq, h.unique hl]

end Format

end NeighborSearch.Binary
