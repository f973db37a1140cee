import NeighborSearch.Decimal.Scaling
import NeighborSearch.Proofs.Binary.Double
import NeighborSearch.Proofs.Decimal.Shortest

/-! Multiples of powers of ten, told by their errors.

`nearest` gives the double that a decimal rounds to (`nearest_double_of_rounds`). A power of ten is
the double nearest to it, and up to `10 ^ 22` it is exact, since no power of five up to there needs
more bits than a significand has (`powerOfTen_spec`). One product or quotient is rounded once more,
so a word that is scaled is off by little more than two roundings, and by only one where the power
is exact (`scale?_spec`). -/
namespace NeighborSearch.Decimal
open Binary

/-! ### The nearest double -/

theorem ten_pow_le_two_zpow (n : Nat) : (10 : ℚ) ^ n ≤ 2 ^ (4 * n : Int) :=
  calc (10 : ℚ) ^ n ≤ 16 ^ n := pow_le_pow_left₀ (by norm_num) (by norm_num) n
    _ = 2 ^ (4 * n : Int) := by rw [zpow_mul]; norm_num

theorem two_zpow_le_ten_pow (n : Nat) : (2 : ℚ) ^ (3 * n : Int) ≤ 10 ^ n :=
  calc (2 : ℚ) ^ (3 * n : Int) = 8 ^ n := by rw [zpow_mul]; norm_num
    _ ≤ 10 ^ n := pow_le_pow_left₀ (by norm_num) (by norm_num) n

theorem value_eq_div (d : Decimal) : value d =
    ((d.coefficient * 10 ^ d.exponent.toNat : Nat) : ℚ) / (10 ^ (-d.exponent).toNat : Nat) := by
  rw [value, zpow_eq_div (by norm_num)]
  push_cast
  ring

/-- Beyond the reach of a decimal exponent there is no finite double. -/
theorem not_reach_lt_exponent {d : Decimal} {k : Nat} (h : double.Rounds (value d) k)
    (hk : k < double.infinity) (hd : 0 < d.coefficient) : ¬ (reach : Int) < d.exponent := by
  intro hreach
  have hone : (1 : ℚ) ≤ d.coefficient := by exact_mod_cast hd
  have hlow : (10 : ℚ) ^ (400 : Nat) ≤ value d := by
    rw [value, ← zpow_natCast]
    refine (zpow_le_zpow_right₀ (by norm_num) ?_).trans
      (le_mul_of_one_le_left (ten_zpow_pos d.exponent).le hone)
    exact hreach.le
  have hhigh := h.le_midpoint.trans_lt (double.midpoint_lt_value hk)
  rw [value_infinity_double] at hhigh
  have hbits : (2 : ℚ) ^ (1024 : Int) ≤ 2 ^ (3 * (400 : Nat) : Int) :=
    zpow_le_zpow_right₀ (by norm_num) (by decide)
  have hten := two_zpow_le_ten_pow 400
  exact absurd (hlow.trans_lt hhigh) (not_lt.2 (hbits.trans hten))

/-- A decimal that lies so far below one is nearer to zero than to the least double. -/
theorem eq_zero_of_exponent_lt {d : Decimal} {k : Nat} (h : double.Rounds (value d) k)
    (hd : d.exponent < -((reach + d.coefficient.log2 + 1 : Nat) : Int)) : k = 0 := by
  have hcoefficient : (d.coefficient : ℚ) ≤ 10 ^ (d.coefficient.log2 + 1) := by
    have hlog : d.coefficient < 2 ^ (d.coefficient.log2 + 1) := Nat.lt_log2_self
    exact_mod_cast hlog.le.trans (Nat.pow_le_pow_left (by decide) _)
  have hlow : value d ≤ 10 ^ (-(400 : Nat) : Int) := by
    calc value d ≤ 10 ^ (d.coefficient.log2 + 1) * 10 ^ d.exponent :=
          mul_le_mul_of_nonneg_right hcoefficient (ten_zpow_pos _).le
      _ = 10 ^ ((d.coefficient.log2 + 1 : Nat) + d.exponent) := by
          rw [zpow_add₀ (by norm_num), zpow_natCast]
      _ ≤ 10 ^ (-(400 : Nat) : Int) := by
          refine zpow_le_zpow_right₀ (by norm_num) ?_
          rw [reach] at hd
          omega
  have hmid : double.midpoint 0 = 2 ^ (-1075 : Int) := by
    have hmid := Format.midpoint_canonical (f := double) (j := 0) (m := 0) (.inl rfl) (by decide)
    rw [leastExponent_double] at hmid
    simpa using hmid
  have hhigh : (10 : ℚ) ^ (-(400 : Nat) : Int) < double.midpoint 0 := by
    have hten := inv_anti₀ (by positivity) (two_zpow_le_ten_pow 400)
    rw [← zpow_neg, ← zpow_natCast, ← zpow_neg] at hten
    rw [hmid]
    exact hten.trans_lt (zpow_lt_zpow_right₀ (by norm_num) (by decide))
  by_contra hne
  exact absurd (h.midpoint_le (Nat.pos_of_ne_zero hne)) (not_le.2 (hlow.trans_lt hhigh))

/-- **The nearest double is the one that a decimal rounds to**, if that is finite. -/
theorem nearest_double_of_rounds {d : Decimal} {k : Nat} (h : double.Rounds (value d) k)
    (hk : k < double.infinity) : nearest double d = k := by
  by_cases hzero : d.coefficient = 0
  · have hvalue : value d = double.value 0 := by
      rw [value, hzero, Nat.cast_zero, zero_mul, double.value_zero]
    rw [nearest, if_pos hzero, h.unique (hvalue ▸ double.rounds_value 0)]
  · rw [nearest, if_neg hzero,
      if_neg (not_reach_lt_exponent h hk (Nat.pos_of_ne_zero hzero))]
    split
    · next hsmall => exact (eq_zero_of_exponent_lt h hsmall).symm
    · rw [value_eq_div] at h
      rw [show Nat.pow = (· ^ ·) from rfl, Format.nearest_of_rounds (by decide)
        (Nat.pow_pos (by decide)) h, Nat.min_eq_left hk.le]

/-! ### Powers of ten -/

theorem powerOfTen_spec {n : Nat} (hn : n ≤ 100) :
    ∃ b, ofDouble (powerOfTen n) = .finite false b ∧ double.value b ≠ 0 ∧
      Close 1 (double.value b) (10 ^ n) ∧ (n ≤ 22 → double.value b = 10 ^ n) := by
  have hpower : value ⟨1, n⟩ = 10 ^ n := by rw [value, Nat.cast_one, one_mul, zpow_natCast]
  obtain ⟨b, hb⟩ := Format.exists_rounds (f := double) (by decide)
    (show (0 : ℚ) ≤ 10 ^ n by positivity)
  have hone : (1 : ℚ) ≤ 10 ^ n := one_le_pow₀ (by norm_num)
  have hclose := close_double hb ((zpow_le_one_of_nonpos₀ (by norm_num) (by decide)).trans hone)
  have hfinite : b < double.infinity := by
    refine lt_infinity_double hb ?_
    exact (ten_pow_le_two_zpow n).trans (zpow_le_zpow_right₀ (by norm_num) (by omega))
  have hread : nearest double ⟨1, n⟩ = b := nearest_double_of_rounds (hpower ▸ hb) hfinite
  refine ⟨b, ?_, fun hzero => ?_, hclose, fun hexact => ?_⟩
  · rw [powerOfTen, hread, ofDouble_toDouble false hfinite]
  · have := hclose.right
    rw [hzero] at this
    linarith
  · -- the factor `5 ^ n` fits into a significand, and `2 ^ n` only moves it
    have hfive : 5 ^ n ≤ 2 * 2 ^ double.fractionBits :=
      (Nat.pow_le_pow_right (by decide) hexact).trans (by decide)
    obtain ⟨l, hl⟩ := double.exists_value hfive (e := n) (by rw [leastExponent_double]; omega)
    have hten : double.value l = 10 ^ n := by
      rw [hl, zpow_natCast, Nat.cast_pow, ← mul_pow]
      norm_num
    rw [← hten] at hb ⊢
    rw [hb.unique (double.rounds_value l)]

/-! ### Scaled words -/

/-- Two roundings, the first of them being of a power of ten. -/
theorem close_of_rounds {exact x : ℚ} {k : Nat} (hk : double.Rounds x k) (hclose : Close 1 x exact)
    (hlow : (10 ^ 100)⁻¹ ≤ exact) (hhigh : exact ≤ 2 ^ 53 * 10 ^ 100) :
    k < double.infinity ∧ Close 2 (double.value k) exact := by
  have hten : (10 : ℚ) ^ 100 ≤ 2 ^ (400 : Int) := ten_pow_le_two_zpow 100
  have hpos : (0 : ℚ) < (10 ^ 100)⁻¹ := by positivity
  have hleft := hclose.left
  have hright := hclose.right
  push_cast at hleft hright
  have hx : (2 : ℚ) ^ (-1022 : Int) ≤ x := by
    have hinv : (2 ^ (400 : Int))⁻¹ ≤ ((10 : ℚ) ^ 100)⁻¹ := inv_anti₀ (by positivity) hten
    have hsplit : (2 : ℚ) ^ (-401 : Int) = (2 ^ (400 : Int))⁻¹ / 2 := by
      rw [← zpow_neg, div_eq_mul_inv, ← zpow_neg_one 2, ← zpow_add₀ two_ne_zero]
      norm_num
    have hle : (2 : ℚ) ^ (-1022 : Int) ≤ 2 ^ (-401 : Int) :=
      zpow_le_zpow_right₀ (by norm_num) (by decide)
    linarith
  have hx' : x ≤ 2 ^ (900 : Int) := by
    have hsplit : (2 : ℚ) ^ (454 : Int) = 2 ^ 54 * 2 ^ (400 : Int) := by
      rw [← zpow_natCast, ← zpow_add₀ two_ne_zero]
      norm_num
    have hle : (2 : ℚ) ^ (454 : Int) ≤ 2 ^ (900 : Int) :=
      zpow_le_zpow_right₀ (by norm_num) (by decide)
    refine le_trans ?_ hle
    rw [hsplit]
    have hlimit : x * (1 - 1 / 2 ^ 53) ≤ 2 ^ 53 * 2 ^ (400 : Int) :=
      hleft.trans (hhigh.trans (mul_le_mul_of_nonneg_left hten (by norm_num)))
    generalize (2 : ℚ) ^ (400 : Int) = limit at hlimit hx
    linarith
  exact ⟨lt_infinity_double hk hx', (close_double hk hx).trans hclose (double.value_nonneg k)
    (hpos.le.trans hlow)⟩

/-- A word times a power of ten is far from both ends of the doubles, so the nearest one is close. -/
theorem exists_close_double {w : Nat} (hpos : 0 < w) (hw : w < 2 ^ 53) {e : Int} (hlow : -100 ≤ e)
    (hhigh : e ≤ 100) : ∃ k, double.Rounds (w * 10 ^ e) k ∧ k < double.infinity ∧
      Close 2 (double.value k) (w * 10 ^ e) := by
  have hten := ten_zpow_pos e
  have hw1 : (1 : ℚ) ≤ w := by exact_mod_cast hpos
  have hbelow : ((10 : ℚ) ^ 100)⁻¹ ≤ w * 10 ^ e := by
    rw [← zpow_natCast, ← zpow_neg]
    exact (zpow_le_zpow_right₀ (by norm_num) hlow).trans (le_mul_of_one_le_left hten.le hw1)
  have habove : (w : ℚ) * 10 ^ e ≤ 2 ^ 53 * 10 ^ 100 := by
    rw [← zpow_natCast 10 100]
    exact mul_le_mul (by exact_mod_cast hw.le) (zpow_le_zpow_right₀ (by norm_num) hhigh) hten.le
      (by norm_num)
  have hnonneg : (0 : ℚ) ≤ w * 10 ^ e := mul_nonneg w.cast_nonneg hten.le
  obtain ⟨k, hk⟩ := Format.exists_rounds (f := double) (by decide) hnonneg
  have hsame : Close 1 ((w : ℚ) * 10 ^ e) (w * 10 ^ e) := by
    constructor <;> push_cast <;> linarith
  exact ⟨k, hk, close_of_rounds hk hsame hbelow habove⟩

section Scaled
variable {w n : Nat} (hpos : 0 < w) (hw : w < 2 ^ 53) (hn : n ≤ 100)
include hpos hw hn

theorem scaleUp?_spec : ∃ x k, scaleUp? (UInt64.ofNat w).toFloat n = some x ∧
    ofDouble x = .finite false k ∧ Close 2 (double.value k) (w * 10 ^ n) ∧
      (n ≤ 22 → double.Rounds (w * 10 ^ n) k) := by
  obtain ⟨a, ha, haw⟩ := ofDouble_toFloat_exact hw
  obtain ⟨b, hb, -, hclose, hexact⟩ := powerOfTen_spec hn
  obtain ⟨k, hk, hproduct⟩ := ofDouble_mul ha hb
  rw [haw] at hk
  have hclose' : Close 1 (w * double.value b) (w * 10 ^ n) := by
    rw [mul_comm _ (double.value b), mul_comm _ ((10 : ℚ) ^ n)]
    exact hclose.mul_right w.cast_nonneg
  have hw1 : (1 : ℚ) ≤ w := by exact_mod_cast hpos
  have hten : (1 : ℚ) ≤ 10 ^ n := one_le_pow₀ (by norm_num)
  obtain ⟨hfinite, herror⟩ := close_of_rounds hk hclose'
    ((inv_le_one_of_one_le₀ (one_le_pow₀ (by norm_num))).trans (one_le_mul_of_one_le_of_one_le hw1 hten))
    (mul_le_mul (by exact_mod_cast hw.le) (pow_le_pow_right₀ (by norm_num) hn) (by positivity)
      (by positivity))
  rw [Format.number, if_pos hfinite] at hproduct
  have hnot : ((UInt64.ofNat w).toFloat * powerOfTen n).isInf ≠ true := fun h => by
    obtain ⟨negative, h⟩ := isInf_iff.1 h
    rw [hproduct] at h
    cases h
  refine ⟨_, k, ?_, hproduct, herror, fun h => ?_⟩
  · rw [scaleUp?, if_pos (hn.trans (by decide)), if_neg hnot]
  · rwa [← hexact h]

theorem scaleDown_spec : ∃ k, ofDouble (scaleDown (UInt64.ofNat w).toFloat n) = .finite false k ∧
    Close 2 (double.value k) (w / 10 ^ n) ∧ (n ≤ 22 → double.Rounds (w / 10 ^ n) k) := by
  obtain ⟨a, ha, haw⟩ := ofDouble_toFloat_exact hw
  obtain ⟨b, hb, hb0, hclose, hexact⟩ := powerOfTen_spec hn
  obtain ⟨k, hk, hquotient⟩ := ofDouble_div ha hb (by rintro rfl; exact hb0 double.value_zero)
  rw [haw] at hk
  have hw1 : (1 : ℚ) ≤ w := by exact_mod_cast hpos
  have hten : (0 : ℚ) < 10 ^ n := by positivity
  have hclose' : Close 1 (w / double.value b) (w / 10 ^ n) := by
    have hbpos : 0 < double.value b := (double.value_nonneg b).lt_of_ne' hb0
    have h := hclose.symm.mul_right (z := w / (double.value b * 10 ^ n)) (by positivity)
    rwa [show (10 : ℚ) ^ n * (w / (double.value b * 10 ^ n)) = w / double.value b by field_simp,
      show double.value b * (w / (double.value b * 10 ^ n)) = w / 10 ^ n by field_simp] at h
  have hlow : ((10 : ℚ) ^ 100)⁻¹ ≤ w / 10 ^ n := by
    rw [div_eq_mul_inv]
    exact (inv_anti₀ hten (pow_le_pow_right₀ (by norm_num) hn)).trans
      (le_mul_of_one_le_left (inv_nonneg.2 hten.le) hw1)
  have hhigh : (w : ℚ) / 10 ^ n ≤ 2 ^ 53 * 10 ^ 100 :=
    calc (w : ℚ) / 10 ^ n ≤ w := div_le_self w.cast_nonneg (one_le_pow₀ (by norm_num))
      _ ≤ 2 ^ 53 := by exact_mod_cast hw.le
      _ ≤ 2 ^ 53 * 10 ^ 100 := le_mul_of_one_le_right (by positivity) (one_le_pow₀ (by norm_num))
  obtain ⟨hfinite, herror⟩ := close_of_rounds hk hclose' hlow hhigh
  rw [Bool.xor_false, Format.number, if_pos hfinite] at hquotient
  refine ⟨k, ?_, herror, fun h => ?_⟩
  · rwa [scaleDown, if_pos (hn.trans (by decide))]
  · rwa [← hexact h]

end Scaled

/-- **A scaled word** is off by two roundings, and it is the double nearest to the exact multiple if
the power of ten is exact. -/
theorem scale?_spec {w : Nat} (hpos : 0 < w) (hw : w < 2 ^ 53) {e : Int} (hlow : -100 ≤ e)
    (hhigh : e ≤ 100) : ∃ x k, scale? (UInt64.ofNat w).toFloat e = some x ∧
      ofDouble x = .finite false k ∧ Close 2 (double.value k) (w * 10 ^ e) ∧
      (-22 ≤ e → e ≤ 22 → double.Rounds (w * 10 ^ e) k) := by
  by_cases hsign : 0 ≤ e
  · obtain ⟨n, rfl⟩ := Int.eq_ofNat_of_zero_le hsign
    obtain ⟨x, k, hscale, hx, hclose, hexact⟩ := scaleUp?_spec hpos hw (n := n) (by omega)
    rw [zpow_natCast]
    exact ⟨x, k, by rw [scale?, if_pos hsign, Int.toNat_natCast, hscale], hx, hclose,
      fun _ h => hexact (by omega)⟩
  · obtain ⟨n, rfl⟩ : ∃ n : Nat, e = -(n : Int) := ⟨e.natAbs, by omega⟩
    obtain ⟨k, hx, hclose, hexact⟩ := scaleDown_spec hpos hw (n := n) (by omega)
    rw [zpow_neg, zpow_natCast, ← div_eq_mul_inv]
    exact ⟨_, k, by rw [scale?, if_neg hsign, neg_neg, Int.toNat_natCast], hx, hclose,
      fun h _ => hexact (by omega)⟩

end NeighborSearch.Decimal
