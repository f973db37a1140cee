import NeighborSearch.Proofs.Binary.Double

/-! Rounded sums and square roots.

A sum of two values is brought to one exponent and rounded once; an exact sum of zero is positive,
unless both values are negative zeros (`decode_add`). A square root is taken of a whole number; what
is left over tells on which side of the next half the exact root lies, and a number there stands for
it, as near to the root as the last bit allows (`exists_root`, `decode_sqrt`). -/
namespace NeighborSearch.Binary
open Float.Model (UnpackedFloat totalExponent)
open Float.Model.UnpackedFloat (pack Accuracy ExtendedMantissa)

/-- A smaller exponent makes room for more bits. -/
theorem shiftLeft_mul_zpow (m : Nat) {e t : Int} (h : t ≤ e) :
    ((m <<< (e - t).toNat : Nat) : ℚ) * 2 ^ t = m * 2 ^ e := by
  obtain ⟨s, rfl⟩ : ∃ s : Nat, e = t + s := ⟨(e - t).toNat, by omega⟩
  rw [show (t + s - t).toNat = s by omega, Nat.shiftLeft_eq, zpow_add₀ two_ne_zero, zpow_natCast]
  push_cast
  ring

/-- A signed significand that is brought to a smaller exponent. -/
theorem apply_shiftLeft (negative : Bool) (m : Nat) {e t : Int} (h : t ≤ e) :
    (((signOf negative).apply (m <<< (e - t).toNat : Nat) : Int) : ℚ) * 2 ^ t =
      if negative then -((m : ℚ) * 2 ^ e) else m * 2 ^ e := by
  cases negative with
  | false => exact shiftLeft_mul_zpow m h
  | true =>
    rw [if_pos rfl, ← shiftLeft_mul_zpow m h, ← neg_mul]
    exact congrArg (· * _) (Int.cast_neg _)

section Model
variable {F : Float.Model.Format} (hF : 2 ≤ F.exponentBits) {na nb : Bool} {a b : Nat}
include hF

/-! ### Sums -/

/-- A whole number of units, of either sign, is rounded once. -/
theorem decode_normalize (z e : Int) : ∃ k, (Format.ofModel F).Rounds |(z : ℚ) * 2 ^ e| k ∧
    (Format.ofModel F).decode (pack F (.normalize F z e .positive)).toNat =
      (Format.ofModel F).number (decide (z < 0)) k := by
  have hunit : (0 : ℚ) < 2 ^ e := zpow_pos two_pos e
  rw [abs_mul, abs_of_pos hunit, ← Int.cast_abs, Int.abs_eq_natAbs, Int.cast_natCast]
  rcases lt_trichotomy z 0 with h | rfl | h
  · have hround := decode_round hF true (Int.natAbs_pos.2 h.ne) e
    have hnat : (-z).toNat = z.natAbs := by omega
    rwa [UnpackedFloat.normalize, Int.compare_eq_lt.2 h, decide_eq_true h, hnat]
  · exact decode_zero false (by simp)
  · have hround := decode_round hF false (Int.natAbs_pos.2 h.ne') e
    have hnat : z.toNat = z.natAbs := by omega
    rwa [UnpackedFloat.normalize, Int.compare_eq_gt.2 h, decide_eq_false (not_lt.2 h.le), hnat]

/-- Two values other than zero are brought to the smaller one of their exponents. -/
theorem decode_add_finite {m n : Nat} (hm : 0 < m) (hn : 0 < n) (e e' : Int) {s : ℚ}
    (hs : (if na then -((m : ℚ) * 2 ^ e) else m * 2 ^ e) +
      (if nb then -((n : ℚ) * 2 ^ e') else n * 2 ^ e') = s) :
    ∃ k, (Format.ofModel F).Rounds |s| k ∧
      (Format.ofModel F).decode (pack F (.add F (.finite (signOf na) m e hm)
        (.finite (signOf nb) n e' hn))).toNat =
          (Format.ofModel F).number (decide (s < 0)) k := by
  obtain ⟨z, hz⟩ : ∃ z, (signOf na).apply (m <<< (e - min e e').toNat : Nat) +
    (signOf nb).apply (n <<< (e' - min e e').toNat : Nat) = z := ⟨_, rfl⟩
  have hadd : UnpackedFloat.add F (.finite (signOf na) m e hm) (.finite (signOf nb) n e' hn) =
      .normalize F z (min e e') .positive := by
    rw [← hz]
    rfl
  have hunit : (0 : ℚ) < 2 ^ min e e' := zpow_pos two_pos _
  have hsum : (z : ℚ) * 2 ^ min e e' = s := by
    rw [← hz, Int.cast_add, add_mul, apply_shiftLeft na m (min_le_left e e'),
      apply_shiftLeft nb n (min_le_right e e'), hs]
  have hsign : z < 0 ↔ s < 0 := by
    rw [← hsum, ← @Int.cast_lt_zero ℚ, ← mul_lt_mul_iff_of_pos_right hunit, zero_mul]
  have hround := decode_normalize hF z (min e e')
  rwa [hsum, decide_eq_decide.2 hsign, ← hadd] at hround

/-- The sum of two values. Besides a sum below zero, only that of two negative zeros is negative. -/
theorem decode_add (ha : a < (Format.ofModel F).infinity) (hb : b < (Format.ofModel F).infinity)
    {s : ℚ} (hs : (Format.ofModel F).signedValue na a + (Format.ofModel F).signedValue nb b = s) :
    ∃ negative k, (Format.ofModel F).Rounds |s| k ∧
      (negative = true ↔ s < 0 ∨ na = true ∧ nb = true) ∧
      (Format.ofModel F).decode (pack F (.add F
        ((Format.ofModel F).unpacked (.finite na a))
        ((Format.ofModel F).unpacked (.finite nb b)))).toNat =
          (Format.ofModel F).number negative k := by
  have hself : ∀ {n c}, c < (Format.ofModel F).infinity → (Format.ofModel F).decode
      (pack F ((Format.ofModel F).unpacked (.finite n c))).toNat =
        (Format.ofModel F).number n c := fun hc => by
    rw [decode_pack_unpacked hF _ hc, Format.number, if_pos hc]
  by_cases hza : a = 0
  · rw [hza, Format.signedValue_zero, zero_add] at hs
    rw [hza, unpacked_zero, ← hs, Format.abs_signedValue]
    by_cases hzb : b = 0
    · have hzero : UnpackedFloat.add F (.zero (signOf na)) (.zero (signOf nb)) =
          .zero (signOf (na && nb)) := by
        cases na <;> cases nb <;> rfl
      rw [hzb, unpacked_zero, hzero, Format.signedValue_zero]
      refine ⟨na && nb, 0, Format.rounds_value _ 0, by simp, ?_⟩
      rw [number_zero]
      exact decode_packedZero (na && nb)
    · obtain ⟨j, n, hn, hunpacked, -⟩ := exists_unpacked (F := F) nb hzb
      refine ⟨nb, b, Format.rounds_value _ b, ?_, ?_⟩
      · rw [Format.signedValue_neg_iff hzb, or_iff_left_of_imp And.right]
      · rw [← hself hb, hunpacked]
        rfl
  · obtain ⟨i, m, hm, hunpacked, hvalue, -⟩ := exists_unpacked (F := F) na hza
    by_cases hzb : b = 0
    · rw [hzb, Format.signedValue_zero, add_zero] at hs
      rw [hzb, unpacked_zero, ← hs, Format.abs_signedValue]
      refine ⟨na, a, Format.rounds_value _ a, ?_, ?_⟩
      · rw [Format.signedValue_neg_iff hza, or_iff_left_of_imp And.left]
      · rw [← hself ha, hunpacked]
        rfl
    · obtain ⟨j, n, hn, hunpacked', hvalue', -⟩ := exists_unpacked (F := F) nb hzb
      have hboth : na = true ∧ nb = true → s < 0 := by
        rintro ⟨hna, hnb⟩
        rw [← hs]
        exact add_neg ((Format.signedValue_neg_iff hza).2 hna)
          ((Format.signedValue_neg_iff hzb).2 hnb)
      rw [Format.signedValue, Format.signedValue, hvalue, hvalue'] at hs
      obtain ⟨k, hk, hdecode⟩ := decode_add_finite hF hm hn _ _ hs
      rw [hunpacked, hunpacked']
      refine ⟨_, k, hk, ?_, hdecode⟩
      rw [decide_eq_true_iff, or_iff_left_of_imp hboth]

/-! ### Square roots -/

omit hF in
/-- A number that stands for the root of a whole number: on the same side of the next half, and
the root itself if that is whole. -/
theorem exists_root (n : Nat) : ∃ y : ℚ,
    Represents (.ofMantissaAndAccuracy n.sqrt (if n - n.sqrt * n.sqrt = 0 then .exact
      else .inexact (if n - n.sqrt * n.sqrt ≤ n.sqrt then .lt else .gt))) y ∧
      (n.sqrt : ℚ) ≤ y ∧ |y ^ 2 - n| ≤ n.sqrt / 2 := by
  have hle := Nat.sqrt_le n
  have hlt := Nat.lt_succ_sqrt n
  rw [Nat.succ_mul, Nat.mul_succ] at hlt
  obtain ⟨r, hr⟩ : ∃ r, n = n.sqrt * n.sqrt + r := ⟨n - n.sqrt * n.sqrt, by omega⟩
  rw [show n - n.sqrt * n.sqrt = r by omega]
  have hvalue : (n : ℚ) = n.sqrt * n.sqrt + r := by exact_mod_cast hr
  have hrest : r ≤ 2 * n.sqrt := by omega
  rw [hvalue]
  generalize n.sqrt = q at *
  have hq : (0 : ℚ) ≤ q := Nat.cast_nonneg q
  have hrest' : (r : ℚ) ≤ 2 * q := by exact_mod_cast hrest
  rcases Nat.eq_zero_or_pos r with rfl | hpos
  · rw [if_pos rfl]
    refine ⟨q, Represents.exact q, le_rfl, ?_⟩
    rw [abs_le]
    constructor <;> push_cast <;> linarith
  · have hone : (1 : ℚ) ≤ r := by exact_mod_cast hpos
    rw [if_neg hpos.ne']
    by_cases hlow : r ≤ q
    · have hlow' : (r : ℚ) ≤ q := by exact_mod_cast hlow
      rw [if_pos hlow]
      refine ⟨q + 1 / 4, ⟨1 / 4, by norm_num, by norm_num, ?_, ?_⟩, by linarith, ?_⟩
      · simp [ExtendedMantissa.ofMantissaAndAccuracy]
      · simp [ExtendedMantissa.ofMantissaAndAccuracy]
      · rw [abs_le]
        constructor <;> linarith
    · have hhigh : (q : ℚ) + 1 ≤ r := by exact_mod_cast not_le.1 hlow
      rw [if_neg hlow]
      refine ⟨q + 3 / 4, ⟨1 / 4, by norm_num, by norm_num, ?_, ?_⟩, by linarith, ?_⟩
      · simp [ExtendedMantissa.ofMantissaAndAccuracy]
      · simp [ExtendedMantissa.ofMantissaAndAccuracy]
        ring
      · rw [abs_le]
        constructor <;> linarith

/-- The root of a positive value: what is rounded is as near to it as the last bit allows. -/
theorem decode_sqrt
    (hleast : (Format.ofModel F).leastExponent + 2 * F.mantissaBitsWithoutImplicit ≤ 0)
    (ha : a ≠ 0) : ∃ k, ∃ y : ℚ, 0 ≤ y ∧
      |y ^ 2 - (Format.ofModel F).value a| ≤
        (Format.ofModel F).value a / 2 ^ (F.mantissaBitsWithoutImplicit + 1) ∧
      (Format.ofModel F).Rounds y k ∧
      (Format.ofModel F).decode (pack F (.sqrt F
        ((Format.ofModel F).unpacked (.finite false a)))).toNat =
          (Format.ofModel F).number false k := by
  obtain ⟨i, m, hm, hunpacked, hvalue, -⟩ := exists_unpacked (F := F) false ha
  rw [hunpacked, hvalue]
  show ∃ k, ∃ y : ℚ, _ ∧ _ ∧ _ ∧ (Format.ofModel F).decode (pack F (UnpackedFloat.sqrt F
    (.finite .positive m _ hm))).toNat = _
  rw [UnpackedFloat.sqrt, Float.Model.UnpackedFloat.sqrtCore]
  dsimp only
  generalize he : (Format.ofModel F).leastExponent + (i : Int) = e
  have htarget : F.targetExponent ((totalExponent m e + 1).ediv 2) =
      max ((m.log2 + 1 + e + 1).ediv 2 - (F.mantissaBitsWithoutImplicit + 1))
        (Format.ofModel F).leastExponent := by
    rw [Float.Model.Format.targetExponent, minExponent_eq, totalExponent,
      Float.Model.Format.mantissaBits]
    push_cast
    rw [add_comm (1 : Int)]
  generalize F.targetExponent ((totalExponent m e + 1).ediv 2) = target at *
  generalize ht : min (e.ediv 2) target = t
  have hhalf : e.ediv 2 = e / 2 := rfl
  have hdiv : (m.log2 + 1 + e + 1).ediv 2 = (m.log2 + 1 + e + 1) / 2 := rfl
  rw [hhalf] at ht
  rw [hdiv] at htarget
  have hscaled := shiftLeft_mul_zpow m (show 2 * t ≤ e by omega)
  -- the shifted significand has at least twice the bits of a root
  have hbits : 2 ^ (2 * F.mantissaBitsWithoutImplicit) ≤ m <<< (e - 2 * t).toNat := by
    rw [Nat.shiftLeft_eq]
    calc 2 ^ (2 * F.mantissaBitsWithoutImplicit) ≤ 2 ^ (m.log2 + (e - 2 * t).toNat) :=
          Nat.pow_le_pow_right two_pos (by omega)
      _ = 2 ^ m.log2 * 2 ^ (e - 2 * t).toNat := pow_add _ _ _
      _ ≤ m * 2 ^ (e - 2 * t).toNat := Nat.mul_le_mul_right _ (Nat.log2_self_le hm.ne')
  rw [← hscaled]
  generalize m <<< (e - 2 * t).toNat = n at *
  have hroot : 2 ^ F.mantissaBitsWithoutImplicit ≤ n.sqrt := by
    rw [Nat.le_sqrt, ← pow_add, ← two_mul]
    exact hbits
  obtain ⟨y, hy, hle, hclose⟩ := exists_root n
  obtain ⟨k, hk, hdecode⟩ := decode_roundWithAccuracy hF false (e := t) hy (by
    rw [targetExponent_eq]
    have := (Nat.le_log2 ((Nat.two_pow_pos _).trans_le hroot).ne').2 hroot
    omega)
  have hunit : (0 : ℚ) < 2 ^ (2 * t) := zpow_pos two_pos _
  have hsquare : (y * 2 ^ t) ^ 2 = y ^ 2 * 2 ^ (2 * t) := by
    rw [mul_pow, ← zpow_natCast ((2 : ℚ) ^ t), ← zpow_mul, mul_comm t]
    rfl
  have hhalfroot : (n.sqrt : ℚ) / 2 ≤ n / 2 ^ (F.mantissaBitsWithoutImplicit + 1) := by
    rw [pow_succ, ← div_div, div_le_div_iff_of_pos_right two_pos, le_div_iff₀ (by positivity)]
    exact_mod_cast (Nat.mul_le_mul_left _ hroot).trans (Nat.sqrt_le n)
  refine ⟨k, y * 2 ^ t, ?_, ?_, hk, hdecode⟩
  · exact mul_nonneg ((Nat.cast_nonneg _).trans hle) (zpow_pos two_pos _).le
  · rw [hsquare, ← sub_mul, abs_mul, abs_of_pos hunit, mul_div_right_comm]
    exact mul_le_mul_of_nonneg_right (hclose.trans hhalfroot) hunit.le

end Model

end NeighborSearch.Binary
